import H2ClientProxy.RelayHttp2.Session
import H2ClientProxy.Equiv.World
import Mathlib.Data.Option.Basic

/-!
# What sending can do

`nghttp2_session_send` is called from nearly every function of `relay_http2.c`, and it calls back
into that file.  `Effect C R S D w w'` says what a call may have changed:

* a client changes by `C`, a relay that is not freed by `R`, a stream that is not closed by `S`;
* a relay is freed only through a stream of its own that had ended or is doomed, that is, in `D`
  (`Effect.freed`), and the user data of a stream is cleared only together with its relay
  (`Effect.cleared`);
* the counters, the tunnel, the trace and what was released stay as they are.

`Sent` is the effect of sending itself, where clients do not change at all; `sessionSend_spec` is
the specification all callers use.  `StreamsOk` says that the streams point to live relays: only
where it fails can sending use a freed relay.  `SessionsOk` says that the relays of the streams hold
their session: only where it fails can sending use a `NULL` session.
-/

namespace H2ClientProxy

open Wp SendQueue

/-! ### Effects -/

/-- Every stream that names a relay, as its user data or as its data provider, is the stream of
that relay, and the relay is live. -/
def StreamsOk (w : World) : Prop :=
  ∀ s st, w.streams s = some st →
    (∀ r, st.userData = some r →
      ∃ rel, w.relays r = some rel ∧ rel.streamId = s) ∧
    (∀ r, st.provider = some r → st.userData = some r)

/-- Every live relay that a stream names as its user data holds its session. -/
def SessionsOk (w : World) : Prop :=
  ∀ s st r rel, w.streams s = some st → st.userData = some r → w.relays r = some rel →
    rel.session = true

/-- What is left alone of a stream that stays open. -/
structure StreamKept (st st' : Stream) : Prop where
  shutRd : st'.shutRd = st.shutRd
  provider : st'.provider = st.provider
  userData : st'.userData = st.userData ∨ st'.userData = none

/-- What a call may have done to the world; the streams in `D` may be closed even if they have
not ended. -/
structure Effect (C : Client → Client → Prop) (R : Relay → Relay → Prop)
    (S : Stream → Stream → Prop) (D : StreamId → Prop) (w w' : World) : Prop where
  clients : ∀ c, Option.Rel C (w.clients c) (w'.clients c)
  nextClient : w'.nextClient = w.nextClient
  nextRelay : w'.nextRelay = w.nextRelay
  tunnel : w'.tunnel = w.tunnel
  sSession : w'.sSession = w.sSession
  nextStreamId : w'.nextStreamId = w.nextStreamId
  refusesRequests : w'.refusesRequests = w.refusesRequests
  trace : w'.trace = w.trace
  released : w'.released = w.released
  closeOnSend : ∀ s ∈ w'.closeOnSend, s ∈ w.closeOnSend ∨ D s
  relays : ∀ r rel', w'.relays r = some rel' →
    ∃ rel, w.relays r = some rel ∧ rel'.streamId = rel.streamId ∧ R rel rel'
  streams : ∀ s st', w'.streams s = some st' →
    ∃ st, w.streams s = some st ∧ StreamKept st st' ∧ S st st'
  freed : ∀ r rel, w.relays r = some rel → w'.relays r = none →
    ∃ s st, w.streams s = some st ∧ st.userData = some r ∧ (st.shutRd = true ∨ D s)
  cleared : ∀ s st st', w.streams s = some st → w'.streams s = some st' →
    st'.userData ≠ st.userData → ∃ r rel, w.relays r = some rel ∧ rel.streamId = s ∧
      w'.relays r = none
  streamsOk : StreamsOk w → StreamsOk w'
  listed : w.sListRelays.Nodup → w'.sListRelays.Nodup ∧
    ∀ r, r ∈ w'.sListRelays ↔ r ∈ w.sListRelays ∧ (w'.relays r = none → w.relays r = none)

variable {C : Client → Client → Prop} {R : Relay → Relay → Prop} {S : Stream → Stream → Prop}
  {D : StreamId → Prop} {w w' w'' : World}

theorem StreamKept.refl (st : Stream) : StreamKept st st := ⟨rfl, rfl, Or.inl rfl⟩

theorem StreamKept.trans {a b c : Stream} (h : StreamKept a b) (h' : StreamKept b c) :
    StreamKept a c where
  shutRd := h'.shutRd.trans h.shutRd
  provider := h'.provider.trans h.provider
  userData := by
    rcases h'.userData with h1 | h1
    · rw [h1]; exact h.userData
    · exact Or.inr h1

/-- User data that is still set is the user data of before. -/
theorem StreamKept.userData_of_some {a b : Stream} (h : StreamKept a b) {r : RelayId}
    (hb : b.userData = some r) : a.userData = some r := by
  rcases h.userData with h1 | h1
  · rw [← h1]; exact hb
  · rw [h1] at hb; exact absurd hb (by simp)

/-- A client that is there afterwards was there before. -/
theorem Effect.client_of (h : Effect C R S D w w') {c : ClientId} {cl' : Client}
    (hc : w'.clients c = some cl') : ∃ cl, w.clients c = some cl ∧ C cl cl' := by
  have := h.clients c
  rw [hc] at this
  cases hw : w.clients c with
  | none => rw [hw] at this; cases this
  | some cl => rw [hw] at this; cases this with | some h => exact ⟨cl, rfl, h⟩

/-- A relay that is not there stays away. -/
theorem Effect.relays_none (h : Effect C R S D w w') {r : RelayId} (hr : w.relays r = none) :
    w'.relays r = none := by
  cases hr' : w'.relays r with
  | none => rfl
  | some rel' =>
    obtain ⟨rel, hrel, _⟩ := h.relays r rel' hr'
    rw [hr] at hrel
    exact absurd hrel (by simp)

theorem Effect.refl [Std.Refl C] [Std.Refl R] [Std.Refl S] (D : StreamId → Prop) (w : World) :
    Effect C R S D w w where
  clients := fun c => by
    cases w.clients c with
    | none => exact .none
    | some cl => exact .some (Std.Refl.refl cl)
  nextClient := rfl
  nextRelay := rfl
  tunnel := rfl
  sSession := rfl
  nextStreamId := rfl
  refusesRequests := rfl
  trace := rfl
  released := rfl
  closeOnSend := fun _ => Or.inl
  relays := fun _ rel h => ⟨rel, h, rfl, Std.Refl.refl rel⟩
  streams := fun _ st h => ⟨st, h, .refl st, Std.Refl.refl st⟩
  freed := fun _ _ h h' => by rw [h] at h'; exact absurd h' (by simp)
  cleared := fun _ _ _ h h' hne => by
    rw [h] at h'; exact absurd (congrArg Stream.userData (Option.some.inj h').symm) hne
  streamsOk := id
  listed := fun h => ⟨h, fun _ => ⟨fun hr => ⟨hr, id⟩, fun hr => hr.1⟩⟩

theorem Effect.trans [IsTrans Client C] [IsTrans Relay R] [IsTrans Stream S]
    (h : Effect C R S D w w') (h' : Effect C R S D w' w'') :
    Effect C R S D w w'' where
  clients := fun c => by
    have h1 := h.clients c
    have h2 := h'.clients c
    generalize w.clients c = a, w'.clients c = b, w''.clients c = d at h1 h2
    cases h1 with
    | none => exact h2
    | some h1 => cases h2 with | some h2 => exact .some (IsTrans.trans _ _ _ h1 h2)
  nextClient := h'.nextClient.trans h.nextClient
  nextRelay := h'.nextRelay.trans h.nextRelay
  tunnel := h'.tunnel.trans h.tunnel
  sSession := h'.sSession.trans h.sSession
  nextStreamId := h'.nextStreamId.trans h.nextStreamId
  refusesRequests := h'.refusesRequests.trans h.refusesRequests
  trace := h'.trace.trans h.trace
  released := h'.released.trans h.released
  closeOnSend := fun s hs => (h'.closeOnSend s hs).elim (h.closeOnSend s) Or.inr
  relays := by
    intro r rel'' h2
    obtain ⟨rel', h1, e1, k1⟩ := h'.relays r rel'' h2
    obtain ⟨rel, h0, e0, k0⟩ := h.relays r rel' h1
    exact ⟨rel, h0, e1.trans e0, IsTrans.trans _ _ _ k0 k1⟩
  streams := by
    intro s st'' h2
    obtain ⟨st', h1, k1, s1⟩ := h'.streams s st'' h2
    obtain ⟨st, h0, k0, s0⟩ := h.streams s st' h1
    exact ⟨st, h0, k0.trans k1, IsTrans.trans _ _ _ s0 s1⟩
  freed := by
    intro r rel h0 h2
    cases h1 : w'.relays r with
    | none => exact h.freed r rel h0 h1
    | some rel' =>
      -- freed in the second part, by a stream that was there before the first
      obtain ⟨s, st', hs', hu', hd⟩ := h'.freed r rel' h1 h2
      obtain ⟨st, hs, k, _⟩ := h.streams s st' hs'
      exact ⟨s, st, hs, k.userData_of_some hu', by rw [← k.shutRd]; exact hd⟩
  cleared := by
    intro s st st'' h0 h2 hne
    obtain ⟨st', h1, k1⟩ := h'.streams s st'' h2
    -- the user data was cleared in one of the two parts
    by_cases he : st'.userData = st.userData
    · obtain ⟨r, rel', hr', hid, hf⟩ := h'.cleared s st' st'' h1 h2 (by rw [he]; exact hne)
      obtain ⟨rel, hr, e, _⟩ := h.relays r rel' hr'
      exact ⟨r, rel, hr, e.symm.trans hid, hf⟩
    · obtain ⟨r, rel, hr, hid, hf⟩ := h.cleared s st st' h0 h1 he
      exact ⟨r, rel, hr, hid, h'.relays_none hf⟩
  streamsOk := fun ho => h'.streamsOk (h.streamsOk ho)
  listed := by
    intro hn
    obtain ⟨hn', hl'⟩ := h.listed hn
    obtain ⟨hn'', hl''⟩ := h'.listed hn'
    refine ⟨hn'', fun r => ?_⟩
    rw [hl'', hl']
    constructor
    · rintro ⟨⟨hr, h0⟩, h1⟩
      exact ⟨hr, fun h2 => h0 (h1 h2)⟩
    · rintro ⟨hr, h2⟩
      exact ⟨⟨hr, fun h1 => h2 (h'.relays_none h1)⟩, fun h3 => h.relays_none (h2 h3)⟩

/-- An effect is also a coarser one. -/
theorem Effect.mono {C' : Client → Client → Prop} {R' : Relay → Relay → Prop}
    {S' : Stream → Stream → Prop} {D' : StreamId → Prop} (h : Effect C R S D w w')
    (hC : ∀ a b, C a b → C' a b) (hR : ∀ a b, R a b → R' a b) (hS : ∀ a b, S a b → S' a b)
    (hd : ∀ s, D s → D' s) : Effect C' R' S' D' w w' :=
  { h with
    clients := fun c => by
      have h1 := h.clients c
      generalize w.clients c = a, w'.clients c = b at h1
      cases h1 with
      | none => exact .none
      | some h1 => exact .some (hC _ _ h1)
    closeOnSend := fun s hs => (h.closeOnSend s hs).imp_right (hd s)
    relays := fun r rel' h1 => by
      obtain ⟨rel, hr, hid, hk⟩ := h.relays r rel' h1
      exact ⟨rel, hr, hid, hR _ _ hk⟩
    streams := fun s st' h1 => by
      obtain ⟨st, hs, hk, hk'⟩ := h.streams s st' h1
      exact ⟨st, hs, hk, hS _ _ hk'⟩
    freed := fun r rel h0 h1 => by
      obtain ⟨s, st, hs, hu, hsd⟩ := h.freed r rel h0 h1
      exact ⟨s, st, hs, hu, hsd.imp_right (hd s)⟩ }

/-! ### Elementary effects -/

section Elementary

variable [Std.Refl C] [Std.Refl R] [Std.Refl S]

/-- A change of a client. -/
theorem effect_setClient {c : ClientId} {cl cl' : Client} (hc : w.clients c = some cl)
    (h : C cl cl') : Effect C R S D w (w.setClient c (some cl')) :=
  { (Effect.refl D w : Effect C R S D w w) with
    clients := fun c' => by
      rw [World.setClient_clients]
      by_cases he : c' = c
      · subst he
        rw [Function.update_self, hc]
        exact .some h
      · rw [Function.update_of_ne he]
        exact (Effect.refl D w : Effect C R S D w w).clients c' }

/-- A change of a stream that keeps its receive side, its provider and its user data. -/
theorem effect_mapStream (s : StreamId) (f : Stream → Stream)
    (hf : ∀ st, StreamKept st (f st) ∧ S st (f st) ∧ (f st).userData = st.userData) :
    Effect C R S D w (w.mapStream s f) :=
  have hof : ∀ s' st', (w.mapStream s f).streams s' = some st' →
      ∃ st, w.streams s' = some st ∧ StreamKept st st' ∧ S st st' ∧ st'.userData = st.userData := by
    intro s' st' h
    rw [World.mapStream_streams] at h
    by_cases hs : s' = s
    · subst hs
      rw [Function.update_self, Option.map_eq_some_iff] at h
      obtain ⟨st, hst, rfl⟩ := h
      exact ⟨st, hst, hf st⟩
    · rw [Function.update_of_ne hs] at h
      exact ⟨st', h, .refl st', Std.Refl.refl st', rfl⟩
  { (Effect.refl D w : Effect C R S D w w) with
    streams := by
      intro s' st' h
      obtain ⟨st, hst, hk, hS, _⟩ := hof s' st' h
      exact ⟨st, hst, hk, hS⟩
    cleared := by
      intro s' st st' h h' hne
      obtain ⟨st0, hst, _, _, hu⟩ := hof s' st' h'
      rw [h] at hst
      obtain rfl := Option.some.inj hst
      exact absurd hu hne
    streamsOk := by
      intro ho s' st' h
      obtain ⟨st, hst, hk, _, hu⟩ := hof s' st' h
      rw [hk.provider, hu]
      exact ho s' st hst }

/-- A change of a relay that keeps its stream. -/
theorem effect_setRelay {r : RelayId} {rel rel' : Relay} (hr : w.relays r = some rel)
    (hid : rel'.streamId = rel.streamId) (h : R rel rel') :
    Effect C R S D w (w.setRelay r rel') :=
  have hsame : ∀ r', r' ≠ r → (w.setRelay r rel').relays r' = w.relays r' :=
    fun r' he => Function.update_of_ne he _ _
  have hself : (w.setRelay r rel').relays r = some rel' := Function.update_self ..
  { (Effect.refl D w : Effect C R S D w w) with
    relays := by
      intro r' rel1 h1
      by_cases he : r' = r
      · subst he
        rw [hself] at h1
        obtain rfl := Option.some.inj h1
        exact ⟨rel, hr, hid, h⟩
      · rw [hsame r' he] at h1
        exact ⟨rel1, h1, rfl, Std.Refl.refl rel1⟩
    freed := by
      intro r' rel1 h1 h1'
      by_cases he : r' = r
      · subst he
        rw [hself] at h1'
        exact absurd h1' (by simp)
      · rw [hsame r' he, h1] at h1'
        exact absurd h1' (by simp)
    cleared := by
      intro s st st' h1 h1' hne
      rw [World.setRelay_streams, h1] at h1'
      exact absurd (congrArg Stream.userData (Option.some.inj h1').symm) hne
    streamsOk := by
      intro ho s st hst
      refine ⟨fun r' hu => ?_, (ho s st hst).2⟩
      -- the relay has the stream it had
      obtain ⟨rel1, hr1, hid1⟩ := (ho s st hst).1 r' hu
      by_cases he : r' = r
      · subst he
        rw [hr] at hr1
        obtain rfl := Option.some.inj hr1
        exact ⟨rel', hself, hid.trans hid1⟩
      · exact ⟨rel1, by rw [hsame r' he]; exact hr1, hid1⟩
    listed := by
      refine fun hn => ⟨hn, fun r' => ⟨fun hm => ⟨hm, fun h' => ?_⟩, fun hm => hm.1⟩⟩
      by_cases he : r' = r
      · subst he
        rw [hself] at h'
        exact absurd h' (by simp)
      · rwa [hsame r' he] at h' }

/-- Closing a stream and freeing its relay. -/
theorem effect_removeRelay {s : StreamId} {st : Stream} {r : RelayId} {rel : Relay}
    (hs : w.streams s = some st) (hu : st.userData = some r) (hd : st.shutRd = true ∨ D s)
    (hr : w.relays r = some rel) (hS : ∀ st : Stream, S st { st with userData := none }) :
    Effect C R S D w
      ((((w.mapStream rel.streamId ({ · with userData := none })).removeRelay r)).removeStream s) :=
  have hrelays : ∀ r', ((((w.mapStream rel.streamId ({ · with userData := none })).removeRelay
      r)).removeStream s).relays r' = if r' = r then none else w.relays r' :=
    fun r' => Function.update_apply ..
  have hstreams : ∀ s', ((((w.mapStream rel.streamId ({ · with userData := none })).removeRelay
      r)).removeStream s).streams s' = if s' = s then none else if s' = rel.streamId then
        (w.streams s').map ({ · with userData := none }) else w.streams s' := by
    intro s'
    simp only [World.removeStream_streams, World.removeRelay_streams, World.mapStream_streams,
      Function.update_apply]
    split_ifs with h1 h2
    · rfl
    · rw [h2]
    · rfl
  { (Effect.refl D w : Effect C R S D w w) with
    relays := by
      intro r' rel' h
      rw [hrelays] at h
      split_ifs at h
      exact ⟨rel', h, rfl, Std.Refl.refl rel'⟩
    streams := by
      intro s' st' h
      rw [hstreams] at h
      split_ifs at h
      · rw [Option.map_eq_some_iff] at h
        obtain ⟨st0, h0, rfl⟩ := h
        exact ⟨st0, h0, ⟨rfl, rfl, Or.inr rfl⟩, hS st0⟩
      · exact ⟨st', h, .refl st', Std.Refl.refl st'⟩
    freed := by
      intro r' rel' h h'
      rw [hrelays] at h'
      split_ifs at h' with he
      · subst he
        exact ⟨s, st, hs, hu, hd⟩
      · rw [h] at h'
        exact absurd h' (by simp)
    cleared := by
      intro s' st0 st' h h' hne
      rw [hstreams] at h'
      split_ifs at h' with _ he
      · exact ⟨r, rel, hr, he.symm, by rw [hrelays, if_pos rfl]⟩
      · rw [h] at h'
        exact absurd (congrArg Stream.userData (Option.some.inj h').symm) hne
    streamsOk := by
      intro ho s' st' h
      -- under `StreamsOk` the stream that is closed is the only one of the relay
      obtain ⟨rel1, hr1, hid⟩ := (ho s st hs).1 r hu
      obtain rfl : rel = rel1 := Option.some.inj (hr.symm.trans hr1)
      rw [hstreams] at h
      split_ifs at h with he1 he2
      · exact absurd (he2.trans hid) he1
      · refine ⟨fun r' hu' => ?_, (ho s' st' h).2⟩
        obtain ⟨rel', hr', hid'⟩ := (ho s' st' h).1 r' hu'
        refine ⟨rel', ?_, hid'⟩
        rw [hrelays, if_neg, hr']
        rintro rfl
        obtain rfl : rel = rel' := Option.some.inj (hr.symm.trans hr')
        exact he2 hid'.symm
    listed := by
      refine fun hn => ⟨hn.erase r, fun r' => ?_⟩
      rw [hrelays]
      change r' ∈ w.sListRelays.erase r ↔ _
      rw [hn.mem_erase_iff]
      constructor
      · rintro ⟨hne, hm⟩
        exact ⟨hm, by rw [if_neg hne]; exact id⟩
      · rintro ⟨hm, hf⟩
        refine ⟨?_, hm⟩
        rintro rfl
        rw [if_pos rfl, hr] at hf
        exact absurd (hf rfl) (by simp) }

/-- Closing a stream that has no user data. -/
theorem effect_removeStream (s : StreamId) : Effect C R S D w (w.removeStream s) :=
  have hof : ∀ s' st', (w.removeStream s).streams s' = some st' → w.streams s' = some st' := by
    intro s' st' h
    rw [World.removeStream_streams, Function.update_apply] at h
    split_ifs at h
    exact h
  { (Effect.refl D w : Effect C R S D w w) with
    streams := fun s' st' h => ⟨st', hof s' st' h, .refl st', Std.Refl.refl st'⟩
    cleared := by
      intro s' st st' h h' hne
      rw [hof s' st' h'] at h
      exact absurd (congrArg Stream.userData (Option.some.inj h)) hne
    streamsOk := fun ho s' st' h => ho s' st' (hof s' st' h) }

/-- What is queued may be forgotten, and the answers to come may change. -/
theorem effect_setQueues (pulls : List (List (StreamId × ℕ))) :
    Effect C R S D w ((w.setCloseOnSend []).setPulls pulls) :=
  { (Effect.refl D w : Effect C R S D w w) with
    closeOnSend := fun _ hs => absurd hs (by simp) }

theorem effect_setSends (sends : List SendResult) : Effect C R S D w (w.setSends sends) :=
  { (Effect.refl D w : Effect C R S D w w) with }

end Elementary

/-! ### The effect of sending -/

/-- A relay keeps everything but its write list. -/
def WriteListOnly (rel rel' : Relay) : Prop :=
  ∃ q, rel' = { rel with listWriteBuf := q }

/-- A stream keeps its receive window. -/
def RecvKept (st st' : Stream) : Prop := st'.recvLen = st.recvLen

/-- The effect of a call that sends: no client changes, a relay at most its write list. -/
abbrev Sent := Effect Eq WriteListOnly RecvKept

instance : Std.Refl WriteListOnly := ⟨fun rel => ⟨rel.listWriteBuf, rfl⟩⟩

instance : IsTrans Relay WriteListOnly :=
  ⟨fun _ _ _ ⟨_, h⟩ ⟨q, h'⟩ => ⟨q, by rw [h', h]⟩⟩

instance : Std.Refl RecvKept := ⟨fun _ => rfl⟩

instance : IsTrans Stream RecvKept := ⟨fun _ _ _ h h' => Eq.trans h' h⟩

/-- The faults of a call that sends. -/
def SendFault (w : World) : Fault → Prop
  | .nullSession => ¬ SessionsOk w
  | .relayFreed _ => ¬ StreamsOk w
  | _ => False

/-- An effect that leaves the session of each relay alone keeps `SessionsOk`. -/
theorem SessionsOk.effect (ho : SessionsOk w) (hR : ∀ a b, R a b → b.session = a.session)
    (h : Effect C R S D w w') : SessionsOk w' := by
  intro s st' r rel' hs' hu hr'
  obtain ⟨st, hs, hk, _⟩ := h.streams s st' hs'
  obtain ⟨rel, hr, _, hk'⟩ := h.relays r rel' hr'
  rw [hR rel rel' hk']
  exact ho s st r rel hs (hk.userData_of_some hu) hr

/-- Faults are inherited backwards along such an effect. -/
theorem SendFault.of_effect {e : Fault} (hR : ∀ a b, R a b → b.session = a.session)
    (h : Effect C R S D w w') (he : SendFault w' e) : SendFault w e := by
  cases e with
  | relayFreed r => exact fun ho => he (h.streamsOk ho)
  | nullSession => exact fun ho => he (ho.effect hR h)
  | _ => exact he

theorem WriteListOnly.session {rel rel' : Relay} (h : WriteListOnly rel rel') :
    rel'.session = rel.session := by
  obtain ⟨q, rfl⟩ := h
  rfl

theorem SendFault.of_sent {e : Fault} (h : Sent D w w') (he : SendFault w' e) : SendFault w e :=
  he.of_effect (fun _ _ => WriteListOnly.session) h

/-- `nghttp2_session_close_stream` on a stream that has ended or is doomed. -/
theorem closeStream_spec (s : StreamId)
    (hd : ∀ st, w.streams s = some st → st.shutRd = true ∨ D s) :
    wp (closeStream s) (fun _ => Sent D w) (fun e w' => w' = w ∧ SendFault w e) w := by
  simp only [closeStream, wp_bind, wp_get, relayOnStreamClose, getStreamUserData]
  cases hs : w.streams s with
  | none => exact effect_removeStream s
  | some st =>
    cases hu : st.userData with
    | none =>
      simp only [Option.bind_some, hu]
      exact effect_removeStream s
    | some r =>
      simp only [Option.bind_some, hu, relayFree, wp_bind, wp_getRelay]
      cases hr : w.relays r with
      | none =>
        refine ⟨trivial, fun ho => ?_⟩
        obtain ⟨rel, hrel, _⟩ := (ho s st hs).1 r hu
        rw [hr] at hrel
        exact absurd hrel (by simp)
      | some rel =>
        simp only [setStreamUserData, wp_bind, wp_needSession, wp_modify]
        split_ifs with hsess
        · exact effect_removeRelay hs hu (hd st hs) hr fun _ => rfl
        · exact ⟨trivial, fun ho => hsess (ho s st r rel hs hu hr)⟩

/-- Closing a stream without user data only unlinks it. -/
theorem closeStream_unlinks {s : StreamId} {E : Fault → World → Prop}
    (hs : ∀ st, w.streams s = some st → st.userData = none) :
    wp (closeStream s) (fun _ w' => w' = w.removeStream s) E w := by
  have hu : getStreamUserData w s = none := by
    unfold getStreamUserData
    cases hst : w.streams s with
    | none => rfl
    | some st => exact hs st hst
  simp only [closeStream, wp_bind, wp_get, hu, relayOnStreamClose, wp_pure, wp_modify]

/-- `relay_data_source_read_callback` only takes bytes from the write list. -/
theorem relayDataSourceRead_spec (r : RelayId) (length : ℕ) :
    wp (relayDataSourceRead r length)
      (fun _ w' => ∃ rel q, w.relays r = some rel ∧ w' = w.setRelay r { rel with listWriteBuf := q })
      (fun e w' => w' = w ∧ e = .relayFreed r ∧ w.relays r = none) w := by
  simp only [relayDataSourceRead, wp_bind, wp_getRelay, wp_putRelay, wp_ite, wp_pure]
  cases hr : w.relays r with
  | none => exact ⟨trivial, trivial, rfl⟩
  | some rel => dsimp only; split_ifs <;> exact ⟨rel, _, rfl, rfl⟩

/-- nghttp2 asks one data provider. -/
theorem pull_spec (s : StreamId) (length : ℕ) :
    wp (pull s length) (fun _ => Sent D w)
      (fun e w' => Sent D w w' ∧ SendFault w e) w := by
  simp only [pull, wp_bind, wp_get]
  cases hs : w.streams s with
  | none => exact .refl _ _
  | some st =>
    dsimp only
    cases hp : st.provider with
    | none => exact .refl _ _
    | some r =>
      simp only [wp_ite, wp_pure]
      split_ifs
      · exact .refl _ _
      · rw [pullFrom, wp_bind]
        refine wp_mono (relayDataSourceRead_spec r length) ?_ ?_
        · rintro res w1 ⟨rel, q, hr, rfl⟩
          have h1 : Sent D w (w.setRelay r { rel with listWriteBuf := q }) :=
            effect_setRelay hr rfl ⟨q, rfl⟩
          cases res with
          | copied data => exact h1
          | deferred =>
            exact h1.trans (effect_mapStream s _ fun st => ⟨⟨rfl, rfl, Or.inl rfl⟩, rfl, rfl⟩)
          | eof =>
            -- our side has ended; if the other has too, the stream is closed and the relay freed
            have h2 := h1.trans (effect_mapStream s ({ · with shutWr := true })
              fun st => ⟨⟨rfl, rfl, Or.inl rfl⟩, rfl, rfl⟩)
            simp only [wp_bind, wp_modify, wp_ite, wp_pure]
            split_ifs with hrd
            · refine wp_mono (closeStream_spec (D := D) s ?_)
                (fun _ w' h => h2.trans h) (fun e w' h => ⟨h.1 ▸ h2, h.2.of_sent h2⟩)
              intro st' hst'
              simp only [World.mapStream_streams, Function.update_self, World.setRelay_streams, hs,
                Option.map_some, Option.some.injEq] at hst'
              rw [← hst']
              exact Or.inl hrd
            · exact h2
        · rintro e w' ⟨rfl, rfl, hr⟩
          refine ⟨.refl _ _, fun ho => ?_⟩
          obtain ⟨rel, hrel, _⟩ := (ho s st hs).1 r ((ho s st hs).2 r hp)
          rw [hr] at hrel
          exact absurd hrel (by simp)

theorem closeStreams_spec (sids : List StreamId) (hd : ∀ s ∈ sids, D s) :
    wp (closeStreams sids) (fun _ => Sent D w)
      (fun e w' => Sent D w w' ∧ SendFault w e) w := by
  induction sids generalizing w with
  | nil => exact .refl _ _
  | cons s sids ih =>
    rw [closeStreams, wp_bind]
    refine wp_mono (closeStream_spec (D := D) s fun _ _ => Or.inr (hd s (by simp))) ?_
      (fun e w' h => ⟨h.1 ▸ .refl _ _, h.2⟩)
    intro _ w1 h1
    exact wp_mono (ih fun s' hs' => hd s' (by simp [hs'])) (fun _ _ h => h1.trans h)
      (fun _ _ h => ⟨h1.trans h.1, h.2.of_sent h1⟩)

/-- Closing streams queues nothing. -/
theorem closeStreams_closeOnSend (sids : List StreamId) :
    wp (closeStreams sids) (fun _ w' => w'.closeOnSend = w.closeOnSend) (fun _ _ => True) w := by
  induction sids generalizing w with
  | nil => rfl
  | cons s sids ih =>
    rw [closeStreams, wp_bind]
    have h1 : wp (closeStream s) (fun _ w' => w'.closeOnSend = w.closeOnSend)
        (fun _ _ => True) w := by
      simp only [closeStream, wp_bind, wp_get]
      cases hu : getStreamUserData w s with
      | none => rfl
      | some r =>
        simp only [relayOnStreamClose, relayFree, wp_bind, wp_getRelay]
        cases hr : w.relays r with
        | none => trivial
        | some rel =>
          simp only [setStreamUserData, wp_bind, wp_needSession, wp_modify]
          split_ifs
          rfl
    refine wp_mono h1 (fun _ w1 he => ?_) fun _ _ => id
    exact wp_mono ih (fun _ w2 he2 => he2.trans he) fun _ _ => id

theorem pullAll_spec (pulls : List (StreamId × ℕ)) :
    wp (pullAll pulls) (fun _ => Sent D w)
      (fun e w' => Sent D w w' ∧ SendFault w e) w := by
  induction pulls generalizing w with
  | nil => exact .refl _ _
  | cons p pulls ih =>
    rw [pullAll, wp_bind]
    refine wp_mono (pull_spec (D := D) p.1 p.2) ?_ (fun _ _ => id)
    intro _ w1 h1
    exact wp_mono ih (fun _ _ h => h1.trans h) (fun _ _ h => ⟨h1.trans h.1, h.2.of_sent h1⟩)

/-- **What `nghttp2_session_send` can do**: it may close the streams queued for closing and those
that have ended, and frees their relays. -/
theorem sessionSend_spec {session : Bool} (hsess : session = true) :
    wp (sessionSend session) (fun _ w' => Sent (· ∈ w.closeOnSend) w w')
      (fun e w' => Sent (· ∈ w.closeOnSend) w w' ∧ SendFault w e) w := by
  simp only [sessionSend, wp_bind, wp_needSession, wp_get, wp_modify]
  rw [if_pos hsess]
  have h0 : Sent (· ∈ w.closeOnSend) w ((w.setCloseOnSend []).setPulls w.pulls.tail) :=
    effect_setQueues _
  refine wp_mono (closeStreams_spec (D := (· ∈ w.closeOnSend)) w.closeOnSend
    fun _ => id) ?_ (fun _ _ h => ⟨h0.trans h.1, h.2.of_sent h0⟩)
  intro _ w1 h1
  exact wp_mono (pullAll_spec _) (fun _ _ h => (h0.trans h1).trans h)
    (fun _ _ h => ⟨(h0.trans h1).trans h.1, h.2.of_sent (h0.trans h1)⟩)

end H2ClientProxy
