import H2ClientProxy.Equiv.Clients

/-!
# One end for each relay

A relay ends for its client with its terminal event (`RELAY_MSG_COMPLETE` or a `RELAY_ERR_*`) or
with `relay_close`; afterwards the client may be gone, and must not be called back for that relay.
`Silent` says so of a trace.  The relay does not remember its end: it looks at `is_attached` alone,
which only `relay_close` clears, and the connect timer does not even look at that.

* `EndsOnce`: the condition on a state and an event under which no ended relay calls back;
* `Orderly`: what ended relays look like, whichever way they ended;
* `wp_run_silent`: every run that meets `EndsOnce` is silent, up to a fault and beyond it;
* `not_silent`: in general a run is not.
-/

namespace H2ClientProxy

open Wp Machine SendQueue

/-! ### The property -/

/-- What ends the relay `r` for its client. -/
def Obs.ends (r : RelayId) : Obs → Bool
  | .event r' what _ _ => r' = r && what.terminal
  | .close r' => r' = r
  | _ => false

/-- The relay `r` has had its terminal event, or has been closed. -/
def Ended (r : RelayId) (trace : List Obs) : Prop := ∃ o ∈ trace, o.ends r = true

instance (r : RelayId) (trace : List Obs) : Decidable (Ended r trace) :=
  inferInstanceAs (Decidable (∃ o ∈ trace, o.ends r = true))

/-- No relay calls its client back after its end; in particular it has one terminal event at
most. -/
def Silent (trace : List Obs) : Prop :=
  ∀ pre r what h b post, trace = pre ++ .event r what h b :: post → ¬ Ended r pre

/-! ### The condition -/

/-- The relay that a stream belongs to, if it is there and attached, has not reported the end of its
response. -/
def unfinished (w : World) (userData : Option RelayId) : Bool :=
  userData.all fun r => (w.relays r).all fun rel =>
    !rel.isAttached || rel.relayStatus ≠ .msgComplete

/-- The relay looks ended: it is detached, or it has reported the end of its response, or its connect
timer has fired without a submission. -/
def looksEnded (rel : Relay) : Bool :=
  !rel.isAttached || rel.relayStatus = .msgComplete ||
    (rel.relayStatus = .connecting && !rel.tmrConnectd)

/-- The connect timer fires only for a relay that is attached and connecting; frames that are
reported and pieces of `DATA` come only for a relay that has not reported the end of its response;
the tunnel fails only while this holds of every attached relay, and none of them has reported that
the connection failed. -/
def EndsOnce (w : World) : Event → Bool
  | .timer r => (w.relays r).all fun rel =>
      !rel.tmrConnectd || (rel.isAttached && rel.relayStatus = .connecting)
  | .recvFrame s frame => w.tunnel ≠ .connected || (w.streams s).all fun st =>
      !frame.callsBack || (frame ≠ .rstStream && (st.shutRd || st.closing)) ||
        unfinished w st.userData
  | .recvData s _ => w.tunnel ≠ .connected || (w.streams s).all fun st =>
      st.shutRd || st.closing || unfinished w st.userData
  | .tunnelFailed => w.tunnel = .closed || w.sListRelays.all fun r =>
      (w.relays r).all fun rel => !rel.isAttached || !looksEnded rel
  | _ => true

/-! ### Traces -/

variable {D : StreamId → Prop} {X : Option RelayId} {w w' : World} {r : RelayId}

theorem ended_concat {t : List Obs} {o : Obs} :
    Ended r (t ++ [o]) ↔ Ended r t ∨ o.ends r = true := by
  simp only [Ended, List.mem_append, List.mem_singleton, or_and_right, exists_or, exists_eq_left]

theorem silent_nil : Silent [] := by
  intro pre r what h b post he
  exact absurd he (by simp)

/-- A trace stays silent as long as the next event is not one of an ended relay. -/
theorem Silent.concat {t : List Obs} {o : Obs} (ht : Silent t)
    (ho : ∀ r what h b, o = .event r what h b → ¬ Ended r t) : Silent (t ++ [o]) := by
  intro pre r what h b post he
  -- the event is the last observation, or one of those before
  rcases List.eq_nil_or_concat post with rfl | ⟨post', o', rfl⟩
  · obtain ⟨rfl, ho'⟩ := List.append_inj' he rfl
    rw [List.cons.injEq] at ho'
    exact ho r what h b ho'.1
  · have he' : t ++ [o] = (pre ++ Obs.event r what h b :: post') ++ [o'] := by
      rw [he, List.append_assoc, List.cons_append, List.concat_eq_append]
    obtain ⟨ht', _⟩ := List.append_inj' he' rfl
    exact ht pre r what h b post' ht'

/-- An observation that is not an event of a relay. -/
def Obs.mute : Obs → Bool
  | .event .. => false
  | _ => true

theorem Silent.concat_mute {t : List Obs} {o : Obs} (ht : Silent t) (ho : o.mute = true) :
    Silent (t ++ [o]) := by
  refine ht.concat ?_
  rintro r what h b rfl
  exact absurd ho (by simp [Obs.mute])

/-! ### Ended relays -/

/-- Relays that have ended look ended, clients are never at one of them, and only relays that have
been submitted have streams.  The relay `X` is in the middle of a change, and may be an
exception. -/
structure Orderly (X : Option RelayId) (w : World) : Prop where
  silent : Silent w.trace
  ended_lt : ∀ r, Ended r w.trace → r < w.nextRelay
  current : ∀ c cl r, w.clients c = some cl → cl.relay = some r → X ≠ some r → ¬ Ended r w.trace
  ended : ∀ r rel, w.relays r = some rel → X ≠ some r → Ended r w.trace → looksEnded rel = true
  started : ∀ s st r rel, w.streams s = some st → st.userData = some r → w.relays r = some rel →
    X ≠ some r → rel.relayStatus ≠ .connecting

theorem orderly_init : Orderly none World.init := by
  constructor
  case silent => exact silent_nil
  all_goals simp [World.init, Ended]

/-- A relay that does not look ended has not ended. -/
theorem Orderly.not_ended {rel : Relay} (h : Orderly X w) (hX : X ≠ some r)
    (hr : w.relays r = some rel) (ho : looksEnded rel = false) : ¬ Ended r w.trace := by
  intro he
  have hlooks := h.ended r rel hr hX he
  rw [ho] at hlooks
  exact absurd hlooks (by decide)

theorem Orderly.mono (h : Orderly none w) (X : Option RelayId) : Orderly X w :=
  { h with
    current := fun c cl r hc hr _ => h.current c cl r hc hr (by simp)
    ended := fun r rel hr _ => h.ended r rel hr (by simp)
    started := fun s st r rel hs hu hr _ => h.started s st r rel hs hu hr (by simp) }

/-- The change of the relay `r` is finished. -/
theorem Orderly.settle (h : Orderly (some r) w)
    (hcur : ∀ c cl, w.clients c = some cl → cl.relay = some r → ¬ Ended r w.trace)
    (hend : ∀ rel, w.relays r = some rel → Ended r w.trace → looksEnded rel = true)
    (hst : ∀ s st rel, w.streams s = some st → st.userData = some r → w.relays r = some rel →
      rel.relayStatus ≠ .connecting) : Orderly none w where
  silent := h.silent
  ended_lt := h.ended_lt
  current := by
    intro c cl r' hc hr _
    by_cases he : r' = r
    · exact he ▸ hcur c cl hc (he ▸ hr)
    · exact h.current c cl r' hc hr (by simpa using Ne.symm he)
  ended := by
    intro r' rel hr _
    by_cases he : r' = r
    · exact he ▸ hend rel (he ▸ hr)
    · exact h.ended r' rel hr (by simpa using Ne.symm he)
  started := by
    intro s st r' rel hs hu hr _
    by_cases he : r' = r
    · exact hst s st rel hs (he ▸ hu) (he ▸ hr)
    · exact h.started s st r' rel hs hu hr (by simpa using Ne.symm he)

/-! ### Elementary changes -/

/-- A quiet call keeps the order. -/
theorem Orderly.quiet (h : Orderly X w) (hq : Quiet D w w') : Orderly X w' where
  silent := by
    rw [hq.trace]
    exact h.silent
  ended_lt := by
    rw [hq.trace, hq.nextRelay]
    exact h.ended_lt
  current := by
    intro c cl r hc hr
    obtain ⟨cl0, hc0, hk⟩ := hq.client_of hc
    rw [hq.trace]
    exact h.current c cl0 r hc0 (hk.relay ▸ hr)
  ended := by
    intro r rel hr
    obtain ⟨rel0, hr0, _, hk⟩ := hq.relays r rel hr
    rw [hq.trace, looksEnded, hk.isAttached, hk.relayStatus, hk.tmrConnectd]
    exact h.ended r rel0 hr0
  started := by
    intro s st r rel hs hu hr
    obtain ⟨st0, hs0, hks, _⟩ := hq.streams s st hs
    obtain ⟨rel0, hr0, _, hk⟩ := hq.relays r rel hr
    rw [hk.relayStatus]
    exact h.started s st0 r rel0 hs0 (hks.userData_of_some hu) hr0

theorem Orderly.setTunnel (h : Orderly X w) (t : Tunnel) (b : Bool) : Orderly X (w.setTunnel t b) :=
  { h with }

theorem Orderly.setGoaway (h : Orderly X w) : Orderly X w.setGoaway := { h with }

/-- An observation that ends no relay, and is no event of an ended one. -/
theorem Orderly.log (h : Orderly X w) {o : Obs} (hends : ∀ r, o.ends r = false)
    (ho : ∀ r what h b, o = .event r what h b → ¬ Ended r w.trace) : Orderly X (w.log o) := by
  have hiff : ∀ r, Ended r (w.trace ++ [o]) ↔ Ended r w.trace := by
    intro r
    rw [ended_concat, hends r]
    simp
  constructor
  case silent => exact h.silent.concat ho
  case started => exact h.started
  all_goals
    simp only [World.log_trace, World.log_clients, World.log_relays, World.log_nextRelay, hiff]
  case ended_lt => exact h.ended_lt
  case current => exact h.current
  case ended => exact h.ended

/-- An observation that is no event of a relay and ends none. -/
theorem Orderly.note (h : Orderly X w) {o : Obs} (ho : o.mute = true)
    (hends : ∀ r, o.ends r = false) : Orderly X (w.log o) := by
  refine h.log hends ?_
  rintro r what h b rfl
  exact absurd ho (by simp [Obs.mute])

/-- The relay `r` ends. -/
theorem Orderly.logEnd (h : Orderly none w) {o : Obs} (hends : ∀ r', o.ends r' = true → r' = r)
    (hr : r < w.nextRelay) (ho : ∀ r' what h b, o = .event r' what h b → ¬ Ended r' w.trace) :
    Orderly (some r) (w.log o) := by
  have hiff : ∀ r', some r ≠ some r' → (Ended r' (w.trace ++ [o]) ↔ Ended r' w.trace) := by
    intro r' hne
    rw [ended_concat, or_iff_left]
    intro he
    exact hne (congrArg some (hends r' he).symm)
  constructor
  case silent => exact h.silent.concat ho
  case ended_lt =>
    intro r' he
    rw [World.log_trace, ended_concat] at he
    rcases he with he | he
    · exact h.ended_lt r' he
    · exact hends r' he ▸ hr
  case current =>
    intro c cl r' hc hcr hne
    rw [World.log_trace, hiff r' hne]
    exact h.current c cl r' hc hcr (by simp)
  case ended =>
    intro r' rel hrel hne
    rw [World.log_trace, hiff r' hne]
    exact h.ended r' rel hrel (by simp)
  case started => exact (h.mono (some r)).started

/-- Whoever is still at a relay finds it not ended. -/
theorem Orderly.not_ended_of_fewer (h : Orderly X w) (hf : FewerCurrent w w') :
    ∀ c cl r, w'.clients c = some cl → cl.relay = some r → X ≠ some r → ¬ Ended r w.trace := by
  intro c cl r hc hcr hX
  obtain ⟨cl0, hc0, hcr0⟩ := hf c cl r hc hcr
  exact h.current c cl0 r hc0 hcr0 hX

theorem Orderly.setClient {c : ClientId} {cl cl' : Client} (h : Orderly X w)
    (hc : w.clients c = some cl) (hr : cl'.relay = cl.relay ∨ cl'.relay = none) :
    Orderly X (w.setClient c (some cl')) :=
  { h with current := h.not_ended_of_fewer (fewerCurrent_setClient hc hr) }

theorem Orderly.dropClient (h : Orderly X w) (c : ClientId) : Orderly X (w.setClient c none) :=
  { h with current := h.not_ended_of_fewer (fewerCurrent_dropClient w c) }

theorem Orderly.addClient (h : Orderly X w) {cl : Client} (hr : cl.relay = none) :
    Orderly X (w.addClient cl) :=
  { h with current := h.not_ended_of_fewer (fewerCurrent_addClient w hr) }

/-- No relay that is still to come has ended. -/
theorem Orderly.nextRelay_not_ended (h : Orderly X w) : ¬ Ended w.nextRelay w.trace :=
  fun he => lt_irrefl _ (h.ended_lt _ he)

theorem Orderly.addRelay (h : Orderly X w) (hl : Linked w) (rel : Relay) :
    Orderly X (w.addRelay rel) :=
  { h with
    ended_lt := fun r he => Nat.lt_succ_of_lt (h.ended_lt r he)
    ended := by
      intro r rel1 hr hX he
      rw [World.addRelay_relays, Function.update_apply] at hr
      split_ifs at hr with hnew
      · exact absurd (hnew ▸ he) h.nextRelay_not_ended
      · exact h.ended r rel1 hr hX he
    started := by
      intro s st r rel1 hs hu hr hX
      have hlt := (hl.stream_lt s st hs).2.2 r hu
      rw [World.addRelay_relays, Function.update_of_ne (ne_of_lt hlt)] at hr
      exact h.started s st r rel1 hs hu hr hX }

/-- A client gets a new relay. -/
theorem Orderly.createRelay {c : ClientId} {cl' : Client} {req : ℕ} (h : Orderly X w)
    (hl : Linked w) (hr : cl'.relay = some w.nextRelay) (b : Bool) :
    Orderly X (((w.addRelay { session := b, args := c }).log
      (.create w.nextRelay c req)).setClient c (some cl')) :=
  have h0 : Orderly X (w.addRelay { session := b, args := c }) := h.addRelay hl _
  have h1 := h0.note (o := .create w.nextRelay c req) rfl fun _ => rfl
  have hfresh : ¬ Ended w.nextRelay (w.trace ++ [Obs.create w.nextRelay c req]) := by
    rw [ended_concat, not_or]
    exact ⟨h.nextRelay_not_ended, by simp [Obs.ends]⟩
  { h1 with
    current := by
      intro c' cl1 r hc' hcr hX
      rw [World.setClient_clients, Function.update_apply] at hc'
      split_ifs at hc'
      · obtain rfl := Option.some.inj hc'
        obtain rfl : w.nextRelay = r := Option.some.inj (hr.symm.trans hcr)
        exact hfresh
      · exact h1.current c' cl1 r hc' hcr hX }

/-- A relay changes: it still looks ended if it has ended, and it does not go back to the start. -/
theorem Orderly.setRelay {rel rel' : Relay} (h : Orderly X w) (hr : w.relays r = some rel)
    (hend : Ended r w.trace → looksEnded rel = true → looksEnded rel' = true)
    (hst : rel'.relayStatus = .connecting → rel.relayStatus = .connecting) :
    Orderly X (w.setRelay r rel') :=
  { h with
    ended := by
      intro r' rel1 hr' hX he
      rw [World.setRelay_relays, Function.update_apply] at hr'
      split_ifs at hr' with hsame
      · obtain rfl := Option.some.inj hr'
        subst hsame
        exact hend he (h.ended r' rel hr hX he)
      · exact h.ended r' rel1 hr' hX he
    started := by
      intro s st r' rel1 hs hu hr' hX
      rw [World.setRelay_relays, Function.update_apply] at hr'
      split_ifs at hr' with hsame
      · obtain rfl := Option.some.inj hr'
        subst hsame
        exact fun hc => h.started s st r' rel hs hu hr hX (hst hc)
      · exact h.started s st r' rel1 hs hu hr' hX }

/-- A request is submitted for `r`, of which nothing is said for the time being. -/
theorem Orderly.submitted {rel : Relay} (h : Orderly none w) (hd : Header) :
    Orderly (some r) (submitted w r rel hd) where
  silent := by
    rw [submitted_trace]
    exact h.silent
  ended_lt := by
    rw [submitted_trace, submitted_nextRelay]
    exact h.ended_lt
  current := by
    intro c cl r1 hc hcr _
    rw [submitted_clients] at hc
    rw [submitted_trace]
    exact h.current c cl r1 hc hcr (Option.some_ne_none r1).symm
  ended := by
    intro r1 rel1 hr1 hX he
    rw [submitted_trace] at he
    rcases submitted_relays_eq_some hr1 with ⟨rfl, -⟩ | ⟨-, hr1⟩
    · exact absurd rfl hX
    · exact h.ended r1 rel1 hr1 (Option.some_ne_none r1).symm he
  started := by
    intro s st r1 rel1 hs hu hr1 hX
    rcases submitted_relays_eq_some hr1 with ⟨rfl, -⟩ | ⟨hne, hr1⟩
    · exact absurd rfl hX
    · rcases submitted_streams_eq_some hs with ⟨-, rfl⟩ | ⟨-, hs⟩
      · exact absurd (Option.some.inj hu).symm hne
      · exact h.started s st r1 rel1 hs hu hr1 (Option.some_ne_none r1).symm

/-- The same, for a relay that may have been freed. -/
theorem Orderly.wrote {f : Relay → Relay} (h : Orderly X w) (hw : Wrote r f w w')
    (hf : ∀ rel, (f rel).isAttached = rel.isAttached ∧ (f rel).relayStatus = rel.relayStatus ∧
      (f rel).tmrConnectd = rel.tmrConnectd) : Orderly X w' := by
  rcases hw with ⟨rel, hr, rfl⟩ | ⟨_, rfl⟩
  · obtain ⟨ha, hs, ht⟩ := hf rel
    refine h.setRelay hr (fun _ ho => ?_) fun hc => hs ▸ hc
    rw [looksEnded, ha, hs, ht]
    exact ho
  · exact h.note rfl fun _ => rfl

theorem Orderly.mapStream (h : Orderly X w) (s : StreamId) (f : Stream → Stream)
    (hf : ∀ st, (f st).userData = st.userData) : Orderly X (w.mapStream s f) :=
  { h with
    started := by
      intro s' st' r rel hs' hu
      obtain ⟨st, hst, rfl⟩ := World.mapStream_eq_some hs'
      refine h.started s' st r rel hst ?_
      split_ifs at hu
      · rw [← hf st]
        exact hu
      · exact hu }

/-- A relay is freed. -/
theorem Orderly.freed {rel : Relay} (h : Orderly X w) : Orderly X (freed w r rel) := by
  have hstreams : ∀ s' st' r', (H2ClientProxy.freed w r rel).streams s' = some st' →
      st'.userData = some r' → ∃ st, w.streams s' = some st ∧ st.userData = some r' := by
    intro s' st' r' hs' hu
    obtain ⟨st, hst, rfl⟩ := World.mapStream_eq_some hs'
    refine ⟨st, hst, ?_⟩
    split_ifs at hu
    exact hu
  have hrelays : ∀ r' rel', (H2ClientProxy.freed w r rel).relays r' = some rel' →
      w.relays r' = some rel' := by
    intro r' rel' hr'
    simp only [H2ClientProxy.freed, World.removeRelay_relays, World.mapStream_relays,
      Function.update_apply] at hr'
    split_ifs at hr'
    exact hr'
  exact
    { h with
      ended := fun r' rel' hr' => h.ended r' rel' (hrelays r' rel' hr')
      started := by
        intro s' st' r' rel' hs' hu hr'
        obtain ⟨st, hst, hu0⟩ := hstreams s' st' r' hs' hu
        exact h.started s' st r' rel' hst hu0 (hrelays r' rel' hr') }

/-! ### Events -/

/-- An event that does not end its relay. -/
theorem Orderly.event {what : RelayWhat} (h : Orderly X w) (hw : what.terminal = false)
    (he : ¬ Ended r w.trace) (hd : Header) (b : Bytes) :
    Orderly X (w.log (.event r what hd b)) := by
  refine h.log (fun r' => ?_) ?_
  · rw [Obs.ends, hw, Bool.and_false]
  · rintro r' what' hd' b' ⟨⟩
    exact he

/-- A terminal event. -/
theorem Orderly.terminal (h : Orderly none w) (hr : r < w.nextRelay) (he : ¬ Ended r w.trace)
    (what : RelayWhat) (hd : Header) (b : Bytes) :
    Orderly (some r) (w.log (.event r what hd b)) := by
  refine h.logEnd (fun r' hends => ?_) hr ?_
  · rw [Obs.ends, Bool.and_eq_true, decide_eq_true_eq] at hends
    exact hends.1.symm
  · rintro r' what' hd' b' ⟨⟩
    exact he

/-- A relay announces its header. -/
theorem Orderly.heading {rel rel1 : Relay} (h : Orderly none w) (hr : w.relays r = some rel)
    (he : ¬ Ended r w.trace) : Orderly none (heading w r rel1) := by
  apply Orderly.event _ rfl
  · exact he
  · exact Orderly.setRelay h hr (fun he' => absurd he' he) (by simp)

theorem Orderly.hdrPhase {ends : Bool} (h : Orderly none w) (he : ¬ Ended r w.trace)
    (hp : HdrPhase ends r w w') :
    Orderly none w' ∧ ¬ Ended r w'.trace := by
  obtain ⟨rel, rel1, cl, r1, data, hr, hk, hc, _, _, _, rfl⟩ := hp
  have hw := written_wroteTo (w := H2ClientProxy.heading w r rel1) hc data
  refine ⟨(h.heading hr he).quiet (D := fun _ => False) hw.quiet, ?_⟩
  show ¬ Ended r (w.trace ++ [Obs.event r .headerComplete rel1.responseHeader rel1.bodyData])
  rw [ended_concat, not_or]
  exact ⟨he, by simp [Obs.ends, RelayWhat.terminal]⟩

/-- The client of an ending relay leaves it. -/
theorem Orderly.msgDone {rel : Relay} (h : Orderly (some r) w) (hl : Linked w)
    (hr : w.relays r = some rel) (hs : rel.relayStatus = .msgComplete)
    (hm : MsgDone rel.args w w') : Orderly none w' := by
  have hlt : r < w.nextRelay := (hl.relay_lt r rel hr).1
  have hr' : w'.relays r = some rel := (hm.relays_of_lt hlt).trans hr
  have h' : Orderly (some r) w' := by
    obtain ⟨cl, r1, rel1, w1, hc, _, _, hw1, hend⟩ := hm
    obtain ⟨h1, hl1⟩ : Orderly (some r) w1 ∧ Linked w1 := by
      rcases hw1 with ⟨_, rfl⟩ | ⟨_, rfl⟩
      · exact ⟨h, hl⟩
      · have hw := written_wroteTo hc lastChunk
        exact ⟨h.quiet (D := fun _ => False) hw.quiet, hl.quiet (D := fun _ => False) hw.quiet⟩
    rcases hend with ⟨_, rfl⟩ | ⟨_, hn⟩
    · exact h.dropClient _
    · cases hn with
      | idle hc1 hp => exact h1.setClient hc1 (Or.inr rfl)
      | next hc1 hp => exact h1.createRelay hl1 rfl _
  refine h'.settle ?_ ?_ ?_
  · -- only the client that leaves was at this relay
    intro c cl hc hcr
    have hargs := (hl.msgDone hm).client_eq_args hr' hc hcr
    have hnew := hm.relay_fresh (hargs ▸ hc) hcr
    exact absurd hnew hlt.ne
  · intro rel' hrel' _
    obtain rfl := Option.some.inj (hr'.symm.trans hrel')
    simp [looksEnded, hs]
  · intro s st rel' _ _ hrel'
    obtain rfl := Option.some.inj (hr'.symm.trans hrel')
    rw [hs]
    decide

theorem Orderly.msgPhase (h : Orderly none w) (hl : Linked w) (he : ¬ Ended r w.trace)
    (hm : MsgPhase r w w') : Orderly none w' := by
  obtain ⟨rel, hr, hd⟩ := hm
  have h1 : Orderly none (w.setRelay r { rel with relayStatus := .msgComplete }) :=
    h.setRelay hr (fun he' => absurd he' he) (by simp)
  have h2 : Orderly (some r) (H2ClientProxy.ending w r rel) :=
    h1.terminal (hl.relay_lt r rel hr).1 he .msgComplete _ _
  exact h2.msgDone (hl.ending hr) (Function.update_self ..) rfl hd

/-- The relay of a stream has not ended if it has not reported the end of its response. -/
theorem Orderly.not_ended_of_unfinished {s : StreamId} {st : Stream} {rel : Relay}
    (h : Orderly none w) (hs : w.streams s = some st) (hu : st.userData = some r)
    (hr : w.relays r = some rel) (ha : rel.isAttached = true)
    (hg : unfinished w st.userData = true) : ¬ Ended r w.trace := by
  refine h.not_ended (by simp) hr ?_
  have hcon := h.started s st r rel hs hu hr (by simp)
  rw [hu, unfinished, Option.all_some, hr, Option.all_some, ha] at hg
  simp only [Bool.not_true, Bool.false_or, decide_eq_true_eq] at hg
  simp [looksEnded, ha, hg, hcon]

theorem Orderly.reported {s : StreamId} {st : Stream} {frame : Frame} (h : Orderly none w)
    (hl : Linked w) (hs : w.streams s = some st)
    (hg : frame.callsBack = true → unfinished w st.userData = true)
    (hr : Reported w st.userData frame w') : Orderly none w' := by
  cases hr with
  | ignored => exact h
  | @phases r rel w1 _ hu hr ha h1 h2 =>
    by_cases hcb : (frame.announces || frame.completes) = true
    · have hcb' : frame.callsBack = true := by
        cases frame <;> first | rfl | exact hcb
      have he := h.not_ended_of_unfinished hs hu hr ha (hg hcb')
      obtain ⟨ho1, hl1, he1⟩ : Orderly none w1 ∧ Linked w1 ∧ ¬ Ended r w1.trace := by
        split_ifs at h1
        · obtain ⟨ho1, he1⟩ := h.hdrPhase he h1
          exact ⟨ho1, hl.hdrPhase h1, he1⟩
        · exact h1 ▸ ⟨h, hl, he⟩
      split_ifs at h2
      · exact ho1.msgPhase hl1 he1 h2
      · exact h2 ▸ ho1
    · rw [Bool.or_eq_true, not_or] at hcb
      rw [if_neg hcb.1] at h1
      rw [if_neg hcb.2] at h2
      exact h2 ▸ h1 ▸ h

/-! ### The end of a client or a relay -/

/-- A relay reports its failure and is freed. -/
theorem Orderly.dropAttached {rel : Relay} (h : Orderly none w) (hl : Linked w)
    (hr : w.relays r = some rel) (ho : looksEnded rel = false) :
    Orderly none (H2ClientProxy.freed ((w.log (.event r .errConnFailed rel.responseHeader
      rel.bodyData)).setClient rel.args none) r rel) := by
  have he := h.not_ended (by simp) hr ho
  have h1 := (h.terminal (hl.relay_lt r rel hr).1 he .errConnFailed rel.responseHeader
    rel.bodyData).dropClient rel.args
  have hgone : ∀ rel', (H2ClientProxy.freed ((w.log (.event r .errConnFailed rel.responseHeader
      rel.bodyData)).setClient rel.args none) r rel).relays r ≠ some rel' := by
    intro rel'
    simp [H2ClientProxy.freed]
  refine h1.freed.settle ?_ (fun rel' hr' => absurd hr' (hgone rel'))
    (fun s st rel' _ _ hr' => absurd hr' (hgone rel'))
  intro c cl hc hcr
  change Function.update w.clients rel.args none c = some cl at hc
  rw [Function.update_apply] at hc
  split_ifs at hc with hca
  exact absurd (hl.client_eq_args hr hc hcr) hca

theorem Orderly.dropped {c : ClientId} (h : Orderly none w) (hl : Linked w) (hd : Dropped c w w') :
    Orderly none w' := by
  have hclients := hd.clients_eq
  obtain ⟨cl, hc, ⟨_, rfl⟩ | ⟨r, rel, w1, w2, hcr, hr, h1, h2, rfl⟩⟩ := hd
  · exact h.dropClient c
  -- the relay is closed, then detached
  have hlt : r < w.nextRelay := (hl.relay_lt r rel hr).1
  have ho1 : Orderly (some r) w1 := by
    refine Orderly.quiet (h.logEnd (fun r' hends => ?_) hlt ?_) h1.quiet
    · rw [Obs.ends, decide_eq_true_eq] at hends
      exact hends.symm
    · rintro r' what hd b ⟨⟩
  have hlooks : ∀ rel' : Relay, looksEnded { rel' with isAttached := false } = true := fun _ => rfl
  have ho2 : Orderly (some r) w2 := by
    rcases h2 with ⟨rel1, hr1, rfl⟩ | ⟨_, rfl⟩
    · exact ho1.setRelay hr1 (fun _ _ => hlooks rel1) id
    · exact ho1.note rfl fun _ => rfl
  refine (ho2.dropClient c).settle ?_ ?_ ?_
  · intro c' cl' hc' hcr'
    rw [hclients, Function.update_apply] at hc'
    split_ifs at hc' with hne
    exact absurd ((hl.client_eq_args hr hc' hcr').trans (hl.client_eq_args hr hc hcr).symm) hne
  · intro rel' hr' _
    rcases h2 with ⟨rel1, hr1, rfl⟩ | ⟨hn, rfl⟩
    · change Function.update w1.relays r _ r = some rel' at hr'
      rw [Function.update_self, Option.some.injEq] at hr'
      exact hr' ▸ hlooks rel1
    · exact absurd (hn.symm.trans hr') (by simp)
  · intro s st rel' hs hu hr'
    -- before the call the order had no exception
    obtain ⟨st0, hs0, hk, _⟩ := h1.streams s st (by
      rcases h2 with ⟨_, _, rfl⟩ | ⟨_, rfl⟩ <;> exact hs)
    have hcon := h.started s st0 r rel hs0 (hk.userData_of_some hu) hr (by simp)
    have hstat : ∀ rel1, w1.relays r = some rel1 → rel1.relayStatus = rel.relayStatus := by
      intro rel1 hr1
      obtain ⟨rel0, hr0, _, q, rfl⟩ := h1.relays r rel1 hr1
      obtain rfl := Option.some.inj (hr.symm.trans hr0)
      rfl
    rcases h2 with ⟨rel1, hr1, rfl⟩ | ⟨hn, rfl⟩
    · change Function.update w1.relays r _ r = some rel' at hr'
      rw [Function.update_self, Option.some.injEq] at hr'
      rw [← hr']
      exact hstat rel1 hr1 ▸ hcon
    · exact absurd (hn.symm.trans hr') (by simp)

/-- Every attached relay may still report a failure. -/
def AllReportable (w : World) : Prop :=
  ∀ r rel, w.relays r = some rel → rel.isAttached = true → looksEnded rel = false

theorem Orderly.dropClients {rs : List RelayId} (h : Orderly none w) (hl : Linked w)
    (ha : AllReportable w) (hd : DropClients rs w w') :
    Orderly none w' ∧ Linked w' ∧ AllReportable w' := by
  induction hd with
  | nil => exact ⟨h, hl, ha⟩
  | @cons r rs w w1 w' h1 _ ih =>
    have ha1 : AllReportable w1 := fun r rel hr => ha r rel (h1.relays hr)
    refine ih ?_ (hl.dropOne h1) ha1
    cases h1 with
    | attached hr hatt hc => exact h.dropAttached hl hr (ha _ _ hr hatt)
    | detached hr hatt => exact h.freed

/-! ### The request -/

/-- The connect timer of a relay that is waiting for it fires. -/
theorem Orderly.timed {rel : Relay} (h : Orderly none w) (hr : w.relays r = some rel)
    (ht : rel.tmrConnectd = true) (ha : rel.isAttached = true)
    (hs : rel.relayStatus = .connecting) :
    ¬ Ended r w.trace ∧ Orderly none (w.setRelay r { rel with tmrConnectd := false }) := by
  have he : ¬ Ended r w.trace := h.not_ended (by simp) hr (by simp [looksEnded, ha, hs, ht])
  exact ⟨he, h.setRelay hr (fun he' => absurd he' he) id⟩

theorem Orderly.submits {c : ClientId} {cl : Client} {hd : Header} {rel : Relay}
    (h : Orderly none w) (hs : Submits c cl r hd rel w w') : Orderly none w' := by
  obtain ⟨w1, h1, h2⟩ := hs.sent
  have he : ¬ Ended r w.trace := h.current c cl r hs.client hs.current (by simp)
  have h0 : Orderly none (connecting w c cl r hd) := by
    refine Orderly.note ?_ rfl fun _ => rfl
    exact Orderly.setClient h hs.client (Or.inl rfl)
  have ho1 : Orderly (some r) w1 := (h0.submitted hd).quiet h1.quiet
  have hsent : ∀ rel : Relay, { rel with relayStatus := .requestSent }.relayStatus ≠ .connecting :=
    fun _ => by simp
  have htrace : Ended r w1.trace → False := by
    rw [h1.trace, submitted_trace, connecting, World.log_trace, ended_concat]
    rintro (he' | he')
    · exact he he'
    · exact absurd he' (by simp [Obs.ends])
  rcases h2 with ⟨rel1, hr1, rfl⟩ | ⟨hn, rfl⟩
  · refine Orderly.settle (ho1.setRelay hr1 (fun he' => (htrace he').elim) ?_) ?_ ?_ ?_
    · exact fun hc => absurd hc (hsent rel1)
    · exact fun _ _ _ _ => htrace
    · exact fun _ _ he' => (htrace he').elim
    · intro s st rel' _ _ hr'
      rw [World.setRelay_relays, Function.update_self, Option.some.injEq] at hr'
      exact hr' ▸ hsent rel1
  · have htrace' : Ended r (w1.log (.wildWrite r)).trace → False := by
      rw [World.log_trace, ended_concat]
      rintro (he' | he')
      · exact htrace he'
      · exact absurd he' (by simp [Obs.ends])
    refine Orderly.settle (ho1.note rfl fun _ => rfl) ?_ ?_ ?_
    · exact fun _ _ _ _ => htrace'
    · exact fun _ _ he' => (htrace' he').elim
    · exact fun _ _ _ _ _ hr' => absurd (hn.symm.trans hr') (by simp)

theorem Orderly.bodiesWritten {c : ClientId} {bs : List BodyBuffer} (h : Orderly none w)
    (hb : BodiesWritten c r bs w w') : Orderly none w' := by
  induction hb with
  | nil => exact h
  | cons h1 _ ih => exact ih (Orderly.quiet (h.note rfl fun _ => rfl) h1.quiet)

/-! ### Pieces of `DATA` -/

theorem Orderly.chunked {rel : Relay} (h : Orderly none w) (hr : w.relays r = some rel)
    (he : ¬ Ended r w.trace) (s : StreamId) (data : Bytes) :
    Orderly none (chunked w s r rel data) := by
  have h1 := h.mapStream s (fun st => { st with recvLen := st.recvLen + data.length }) fun _ => rfl
  apply Orderly.event _ rfl
  · exact he
  · exact Orderly.setRelay h1 hr (fun he' => absurd he' he) id

theorem Orderly.chunkDone {s : StreamId} {st : Stream} {data : Bytes} (h : Orderly none w)
    (hs : w.streams s = some st) (hg : unfinished w st.userData = true)
    (hc : ChunkDone w s st data w') : Orderly none w' := by
  cases hc with
  | ignored =>
    exact Orderly.mapStream h s (fun st => { st with recvLen := st.recvLen + data.length })
      fun _ => rfl
  | @written r rel rel1 w1 w2 _ hu hr ha h1 hr1 h2 h3 =>
    have he := h.not_ended_of_unfinished hs hu hr ha hg
    have ho1 : Orderly none w1 := (h.chunked hr he s data).quiet (D := fun _ => False) h1.quiet
    have ho2 : Orderly none w2 := by
      split_ifs at h2
      · exact h2 ▸ ho1.mapStream s ({ · with recvLen := 0 }) fun _ => rfl
      · exact h2 ▸ ho1
    exact ho2.quiet h3.quiet

/-! ### Steps -/

theorem Orderly.resumed (h : Orderly X w) (hr : Resumed r w w') : Orderly X w' := by
  obtain ⟨w1, h1, h2⟩ := hr.quiet
  exact (h.quiet h1).wrote h2 fun _ => ⟨rfl, rfl, rfl⟩

theorem Orderly.setSendSide {c : ClientId} {cl cl' : Client} (h : Orderly X w)
    (hc : w.clients c = some cl) (hk : CtlKept cl cl') (sends : List SendResult) :
    Orderly X ((w.setSends sends).setClient c (some cl')) :=
  have h1 : Orderly X (w.setSends sends) := { h with }
  h1.setClient hc (Or.inl hk.relay)

theorem Orderly.writable {c : ClientId} (h : Orderly none w) (hl : Linked w)
    (hd : WritableDone c w w') : Orderly none w' := by
  cases hd with
  | empty hc hq hr hres => exact h.resumed hres
  | error hc hq hout herr hdrop =>
    exact (h.setSendSide hc (drainedClient_ctl _ _) _).dropped
      (hl.setSendSide hc (drainedClient_ctl _ _) _) hdrop
  | full hc hq hout herr hlen hw => exact hw ▸ h.setSendSide hc (afterDrain_ctl _ _) _
  | resumed hc hq hout herr hlen hr hres =>
    exact (h.setSendSide hc (afterDrain_ctl _ _) _).resumed hres

/-- What `EndsOnce` says of the tunnel's failure. -/
theorem EndsOnce.allReportable (hl : Linked w) (ht : w.tunnel ≠ .closed)
    (hg : EndsOnce w .tunnelFailed = true) : AllReportable w := by
  intro r rel hr ha
  simp only [EndsOnce, decide_eq_false ht, Bool.false_or, List.all_eq_true] at hg
  have hmem : r ∈ w.sListRelays := (hl.listed r).mpr (by rw [hr]; simp)
  have hrel := hg r hmem
  rw [hr, Option.all_some, ha] at hrel
  simpa using hrel

/-- What it says of the timer. -/
theorem EndsOnce.timer {rel : Relay} (hr : w.relays r = some rel) (ht : rel.tmrConnectd = true)
    (hg : EndsOnce w (.timer r) = true) :
    rel.isAttached = true ∧ rel.relayStatus = .connecting := by
  simpa [EndsOnce, hr, ht] using hg

/-- What it says of frames. -/
theorem EndsOnce.frame {s : StreamId} {st : Stream} {frame : Frame} (ht : w.tunnel = .connected)
    (hs : w.streams s = some st) (hg : EndsOnce w (.recvFrame s frame) = true)
    (hopen : frame ≠ .rstStream → (st.shutRd || st.closing) = false)
    (hcb : frame.callsBack = true) : unfinished w st.userData = true := by
  simp only [EndsOnce, ht, hs, hcb, Option.all_some, ne_eq, not_true, decide_false, Bool.false_or,
    Bool.not_true] at hg
  by_cases hf : frame = .rstStream
  · simpa [hf] using hg
  · simpa [hf, hopen hf] using hg

/-- What it says of pieces of `DATA`. -/
theorem EndsOnce.data {s : StreamId} {st : Stream} {data : Bytes} (ht : w.tunnel = .connected)
    (hs : w.streams s = some st) (hopen : (st.shutRd || st.closing) = false)
    (hg : EndsOnce w (.recvData s data) = true) : unfinished w st.userData = true := by
  simpa [EndsOnce, ht, hs, hopen] using hg

theorem Orderly.rstReported {s : StreamId} {st : Stream} (h : Orderly none w) (hl : Linked w)
    (hs : w.streams s = some st) (hg : unfinished w st.userData = true)
    (hr : RstReported w st.userData w') : Orderly none w' := by
  cases hr with
  | ignored => exact h
  | dropped hu hr ha hc =>
    have hcon := h.started s st _ _ hs hu hr (by simp)
    rw [hu, unfinished, Option.all_some, hr, Option.all_some, ha] at hg
    simp only [Bool.not_true, Bool.false_or, decide_eq_true_eq] at hg
    exact h.dropAttached hl hr (by simp [looksEnded, ha, hg, hcon])

/-- **An event that meets `EndsOnce` keeps the order.** -/
theorem Orderly.handled {e : Event} (h : Orderly none w) (hl : Linked w)
    (hg : EndsOnce w e = true) (hh : Handled w e w') : Orderly none w' := by
  cases hh with
  | skip => exact h
  | accept => exact h.addClient rfl
  | msgBegin hc hp hb =>
    refine h.setClient hc (Or.inl ?_)
    cases hb <;> rfl
  | reqHeader hc hk hs => exact h.setClient hc (Or.inl hk.relay)
  | headersComplete hc hp hd =>
    cases hd with
    | pending hh hid hp =>
      exact Orderly.setClient (h.note rfl fun _ => rfl) hc
        (Or.inl (setReqHeader_ctl hh hid).relay)
    | create hh hid hp => exact Orderly.createRelay (h.note rfl fun _ => rfl) (hl.log _) rfl _
  | bodyQueued hc hp hr hrel hst => exact h.setClient hc (Or.inl rfl)
  | bodyWritten hc hp hr hrel hst hs => exact Orderly.quiet (h.note rfl fun _ => rfl) hs.quiet
  | messageComplete hc hp hr hw =>
    refine Orderly.wrote (Orderly.note ?_ rfl fun _ => rfl) hw fun _ => ⟨rfl, rfl, rfl⟩
    exact Orderly.setClient h hc (Or.inl rfl)
  | clientGone hd => exact h.dropped hl hd
  | writable hc hm hd => exact h.writable hl hd
  | timerConnected hr ht hs h1 h2 =>
    obtain ⟨ha, hst⟩ := EndsOnce.timer hr ht hg
    obtain ⟨he, h0⟩ := h.timed hr ht ha hst
    exact ((h0.event rfl he _ _).submits h1).bodiesWritten h2
  | @timerFailed r rel hr ht hs hc =>
    obtain ⟨ha, hst⟩ := EndsOnce.timer hr ht hg
    obtain ⟨he, h0⟩ := h.timed hr ht ha hst
    have h1 := h0.terminal (hl.relay_lt r rel hr).1 he .errConnFailed rel.responseHeader
      rel.bodyData
    refine (h1.dropClient rel.args).settle ?_ ?_ ?_
    · intro c cl hc' hcr
      change Function.update w.clients rel.args none c = some cl at hc'
      rw [Function.update_apply] at hc'
      split_ifs at hc' with hca
      exact absurd (hl.client_eq_args hr hc' hcr) hca
    · intro rel' hr' _
      change Function.update w.relays r _ r = some rel' at hr'
      rw [Function.update_self, Option.some.injEq] at hr'
      rw [← hr']
      simp [looksEnded, hst]
    · -- a relay that is connecting has no stream yet
      exact fun s st rel' hs' hu _ => absurd hst (h.started s st r rel hs' hu hr (by simp))
  | tunnelConnected ht => exact h.setTunnel _ _
  | tunnelFailed ht hd =>
    have ha : AllReportable (w.setTunnel .closed w.sSession) :=
      EndsOnce.allReportable (w := w) hl ht hg
    exact (Orderly.dropClients (h.setTunnel _ _) (hl.setTunnel _ _) ha hd).1.setTunnel _ _
  | recvHeader ht hs hu hr hdr => exact Orderly.setRelay h hr (fun _ => id) id
  | @frame s frame st w1 _ ht hs hopen h1 h2 =>
    have ho1 : Orderly none w1 :=
      h.reported hl hs (EndsOnce.frame ht hs hg fun _ => hopen) h1
    split_ifs at h2
    · exact Orderly.quiet (ho1.mapStream s ({ · with shutRd := true }) fun _ => rfl) h2.quiet
    · exact h2 ▸ ho1
  | rst ht hs h1 h2 h3 =>
    have hu := EndsOnce.frame ht hs hg (fun hne => absurd rfl hne) rfl
    exact (h.rstReported hl hs hu h1).quiet h2.quiet
  | recvData ht hs hopen hd => exact h.chunkDone hs (EndsOnce.data ht hs hopen hg) hd
  | @protocolError s shutRd _ w1 _ ht hs h1 h2 =>
    have ho1 : Orderly none w1 := h.quiet h1.quiet
    split_ifs at h2
    · exact Orderly.quiet (ho1.mapStream s ({ · with shutRd := true }) fun _ => rfl) h2.quiet
    · exact h2 ▸ ho1
  | goaway ht hs hq => exact h.setGoaway.quiet hs.quiet
  | connectionError ht => exact { h with }
  | sessionSend ht hs => exact h.quiet hs.quiet

/-! ### Faults -/

theorem FaultTrace.silent (h : Silent w.trace) (ht : FaultTrace w w') : Silent w'.trace := by
  rcases ht with ht | ⟨r, ht⟩
  · rw [ht]
    exact h
  · rw [ht]
    exact h.concat_mute rfl

theorem ConnectFault.silent {c : ClientId} {err : Fault} (h : Orderly none w)
    (hf : ConnectFault c w err w') : Silent w'.trace := by
  cases hf with
  | early ht he => exact ht ▸ h.silent
  | submit hc hr hh ht he =>
    rw [ht]
    exact h.silent.concat_mute rfl
  | bodies hs hb hw ht he =>
    rw [ht]
    exact ((h.submits hs).bodiesWritten hw).silent.concat_mute rfl

theorem HeadersFault.silent {err : Fault} (h : Orderly none w) (hl : Linked w)
    (he : ¬ Ended r w.trace) (hf : HeadersFault r w err w') : Silent w'.trace := by
  cases hf with
  | noHeader _ ht => exact ht ▸ h.silent
  | heading hr hk _ ht =>
    rw [ht]
    exact (h.heading hr he).silent
  | @ending rel1 w1 h1 hr1 _ ht =>
    obtain ⟨ho1, he1⟩ : Orderly none w1 ∧ ¬ Ended r w1.trace := by
      rcases h1 with rfl | ⟨_, h1⟩
      · exact ⟨h, he⟩
      · exact h.hdrPhase he h1
    rw [ht]
    refine ho1.silent.concat ?_
    rintro r' what hd b ⟨⟩
    exact he1

/-- **A fault is silent too.** -/
theorem HandleFault.silent {e : Event} {err : Fault} (h : Orderly none w) (hl : Linked w)
    (hg : EndsOnce w e = true) (hf : HandleFault w e err w') : Silent w'.trace := by
  cases hf with
  | plain _ ht => exact ht ▸ h.silent
  | headers _ _ _ _ ht =>
    rw [ht]
    exact h.silent.concat_mute rfl
  | body _ _ _ ht => exact ht ▸ h.silent
  | bodyWrite _ _ _ _ _ _ ht =>
    rw [ht]
    exact h.silent.concat_mute rfl
  | messageComplete _ _ _ ht => exact ht ▸ h.silent
  | clientGone _ _ _ ht => exact ht.silent h.silent
  | writable _ _ _ ht => exact ht.silent h.silent
  | timerConnected hr htmr hs hc =>
    -- the relay whose timer fires has told nothing terminal yet
    obtain ⟨ha, hst⟩ := EndsOnce.timer hr htmr hg
    obtain ⟨he, h0⟩ := h.timed hr htmr ha hst
    exact hc.silent (h0.event rfl he _ _)
  | timerFailed hr htmr _ ht =>
    obtain ⟨ha, hst⟩ := EndsOnce.timer hr htmr hg
    obtain ⟨he, h0⟩ := h.timed hr htmr ha hst
    rw [ht]
    exact (h0.terminal (hl.relay_lt _ _ hr).1 he _ _ _).silent
  | @tunnelFailed dropped rest r _ w1 _ ht hrs h1 h2 =>
    -- each relay before the bad one is told once
    have ha : AllReportable (w.setTunnel .closed w.sSession) :=
      EndsOnce.allReportable (w := w) hl ht hg
    obtain ⟨ho1, hl1, ha1⟩ := Orderly.dropClients (h.setTunnel _ _) (hl.setTunnel _ _) ha h1
    cases h2 with
    | stale _ _ htr => exact htr ▸ ho1.silent
    | attached hr hatt _ htr =>
      rw [htr]
      have he := ho1.not_ended (by simp) hr (ha1 _ _ hr hatt)
      exact (ho1.terminal (hl1.relay_lt _ _ hr).1 he _ _ _).silent
    | detached _ _ _ htr => exact htr ▸ ho1.silent
  | stale _ _ _ _ _ htr => exact htr ▸ h.silent
  | frame ht hs hopen hu hr ha hcb hf =>
    have hun := EndsOnce.frame ht hs hg (fun _ => hopen) hcb
    exact hf.silent h hl (h.not_ended_of_unfinished hs hu hr ha hun)
  | frameEnd ht hs hopen h1 hend _ htr =>
    rw [htr]
    exact (h.reported hl hs (EndsOnce.frame ht hs hg fun _ => hopen) h1).silent
  | rst ht hs hu hr ha _ htr =>
    have hun := EndsOnce.frame ht hs hg (fun hne => absurd rfl hne) rfl
    have he := h.not_ended_of_unfinished hs hu hr ha hun
    rw [htr]
    exact (h.terminal (hl.relay_lt _ _ hr).1 he _ _ _).silent
  | rstClose ht hs h1 _ _ htr =>
    have hun := EndsOnce.frame ht hs hg (fun hne => absurd rfl hne) rfl
    rw [htr]
    exact (h.rstReported hl hs hun h1).silent
  | @recvData s data _ _ _ ht hs hopen hc =>
    -- the response is not over, so its relay may still be told
    have hun := EndsOnce.data ht hs hopen hg
    cases hc with
    | stale _ _ _ htr => exact htr ▸ h.silent
    | body hu hr ha _ htr =>
      rw [htr]
      exact (h.chunked hr (h.not_ended_of_unfinished hs hu hr ha hun) s data).silent
    | send hu hr ha h1 _ htr =>
      have ho := h.chunked hr (h.not_ended_of_unfinished hs hu hr ha hun) s data
      rw [htr]
      exact (ho.quiet (D := fun _ => False) h1.quiet).silent
  | send _ _ htr => exact htr ▸ h.silent

/-- The order holds before the event of an input is handled if it holds before the input. -/
theorem Orderly.prepared (h : Orderly none w) (i : Input) : Orderly none (prepared w i) := { h with }

/-! ### Runs -/

/-- **No relay calls back after its end** in a run that meets `EndsOnce`, neither in a state it
reaches nor where it faults. -/
theorem wp_run_silent (is : List Input)
    (hG : Meets step (fun w i => EndsOnce w i.event = true) is World.init) :
    Silent (finalState (run step is World.init)).trace := by
  refine finalState_of_wp (P := fun w : World => Silent w.trace) ?_
  have hrun : wp (run step is) (fun _ w => Linked w ∧ Orderly none w)
      (fun _ w => Silent w.trace) World.init := by
    refine run_wp (I := fun w => Linked w ∧ Orderly none w) ?_ is World.init
      ⟨linked_init, orderly_init⟩ hG
    rintro w i ⟨hl, h⟩ hg
    have hg' : EndsOnce (H2ClientProxy.prepared w i) i.event = true := hg
    refine step_spec i ?_ ?_
    · intro w' hh
      exact ⟨(hl.prepared i).handled hh, (h.prepared i).handled (hl.prepared i) hg' hh⟩
    · intro err w' hf
      exact hf.silent (h.prepared i) (hl.prepared i) hg'
  exact wp_mono hrun (fun _ _ hw => hw.2.silent) fun _ _ => id

/-- A client with a `POST` request that the server refuses before the body has come. -/
def earlyResponse : List Event :=
  opening ++ requestHead 0 (bytes "POST") ++
    [.timer 0, .recvHeader 1 .response (bytes ":status") (bytes "413"),
      .recvHeader 1 .response (bytes "content-length") (bytes "0"), .recvFrame 1 (.headers 5)]

/-- A request with its response meets the condition; so does one that is refused early. -/
theorem wp_run_silent_refused :
    Meets step (fun w i => EndsOnce w i.event = true) (inputs earlyResponse) World.init ∧
      Silent (finalState (run step (inputs earlyResponse) World.init)).trace :=
  ⟨by decide +kernel, wp_run_silent _ (by decide +kernel)⟩

/-- In general a relay calls back after its end: the server resets the stream of a request that it
has refused, and the client is told of a failed connection. -/
theorem not_silent : ¬ ∀ is : List Input, Silent (finalState (run step is World.init)).trace := by
  intro h
  have hev : (finalState (run step (inputs (earlyResponse ++ [Event.recvFrame 1 .rstStream]))
      World.init)).trace = (finalState (run step (inputs earlyResponse) World.init)).trace ++
        .event 0 .errConnFailed
          { statusCode := 413, listHeaders := [⟨bytes "content-length", bytes "0"⟩] } [] :: [] := by
    decide +kernel
  exact h _ _ _ _ _ _ _ hev (by decide +kernel)

end H2ClientProxy
