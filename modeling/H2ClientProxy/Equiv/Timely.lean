import H2ClientProxy.Equiv.Clients

/-!
# When a relay waits for its timer

Between `relay_create` and `relay_send_request` a relay waits for its connect timer.  `Timely` says
where such a relay stands: it is the current one of its client, no stream and no response header
belongs to it yet, and the header block of its request has been parsed.

* `Calm`: what nearly every handler does to the world, as far as this is concerned; no client gets
  or leaves a relay, and nothing is noted about a request;
* `Turn`: the calm steps, and the five others: a client arrives, a request begins, its header block
  ends, it is submitted, its response ends;
* `HeadersWhole`: the condition; no response ends while the header block of the pending request is
  being parsed;
* `Timely.turn`: a step is one of these turns, and `Timely.of_turn`: under the condition a turn keeps
  the invariant.
-/

namespace H2ClientProxy

open Wp Machine SendQueue

variable {D : StreamId → Prop} {w w' w'' : World} {r : RelayId} {c : ClientId}

/-! ### Calm changes -/

/-- An observation that is not about the headers of a request. -/
def Obs.neutral : Obs → Bool
  | .headersComplete .. | .create .. | .sendRequest .. => false
  | _ => true

/-- A client that stays at its requests; the parser may finish the one it is in. -/
structure ClientCalm (cl cl' : Client) : Prop where
  relaySys : cl'.relaySys = cl.relaySys
  relay : cl'.relay = cl.relay
  requestHeader : cl'.requestHeader.map Header.id = cl.requestHeader.map Header.id
  pendingRequestHeader :
    cl'.pendingRequestHeader.map Header.id = cl.pendingRequestHeader.map Header.id
  reqNo : cl'.reqNo = cl.reqNo
  parser : cl'.parser = cl.parser ∨ cl.parser = .body ∧ cl'.parser = .idle
  mask : wantsWrite cl'.file.mask = true → wantsWrite cl.file.mask = true ∨ cl.relay ≠ none

/-- A relay whose timer, if it is pending, stays so, with the header as it is. -/
structure RelayCalm (rel rel' : Relay) : Prop where
  args : rel'.args = rel.args
  streamId : rel'.streamId = rel.streamId
  isAttached : rel'.isAttached = true → rel.isAttached = true
  tmrConnectd : rel'.tmrConnectd = true →
    rel.tmrConnectd = true ∧ rel'.responseHeader = rel.responseHeader

/-- A stream gets no user data and is not opened again. -/
structure StreamCalm (st st' : Stream) : Prop where
  userData : ∀ r, st'.userData = some r → st.userData = some r
  shutRd : st'.shutRd = false → st.shutRd = false

/-- The changes that leave every client at its requests.  A relay that waits goes on waiting, unless
its client is gone or a stream names it. -/
structure Calm (w w' : World) : Prop where
  clients : ∀ c cl', w'.clients c = some cl' → ∃ cl, w.clients c = some cl ∧ ClientCalm cl cl'
  relays : ∀ r rel', w'.relays r = some rel' → ∃ rel, w.relays r = some rel ∧ RelayCalm rel rel'
  streams : ∀ s st', w'.streams s = some st' → ∃ st, w.streams s = some st ∧ StreamCalm st st'
  waiting : ∀ r rel, w.relays r = some rel → rel.tmrConnectd = true →
    (∃ rel', w'.relays r = some rel' ∧ rel'.tmrConnectd = true) ∨
      (∃ s st, w.streams s = some st ∧ st.userData = some r) ∨ w'.clients rel.args = none
  nextClient : w'.nextClient = w.nextClient
  trace : ∃ os, w'.trace = w.trace ++ os ∧ ∀ o ∈ os, o.neutral = true

theorem ClientCalm.refl (cl : Client) : ClientCalm cl cl :=
  ⟨rfl, rfl, rfl, rfl, rfl, Or.inl rfl, Or.inl⟩

theorem RelayCalm.refl (rel : Relay) : RelayCalm rel rel := ⟨rfl, rfl, id, fun h => ⟨h, rfl⟩⟩

theorem StreamCalm.refl (st : Stream) : StreamCalm st st := ⟨fun _ => id, id⟩

theorem ClientCalm.trans {a b d : Client} (h : ClientCalm a b) (h' : ClientCalm b d) :
    ClientCalm a d where
  relaySys := h'.relaySys.trans h.relaySys
  relay := h'.relay.trans h.relay
  requestHeader := h'.requestHeader.trans h.requestHeader
  pendingRequestHeader := h'.pendingRequestHeader.trans h.pendingRequestHeader
  reqNo := h'.reqNo.trans h.reqNo
  parser := by
    rcases h.parser with h1 | ⟨h1, h1'⟩ <;> rcases h'.parser with h2 | ⟨h2, h2'⟩
    · exact Or.inl (h2.trans h1)
    · exact Or.inr ⟨h1.symm.trans h2, h2'⟩
    · exact Or.inr ⟨h1, h2.trans h1'⟩
    · exact absurd (h1'.symm.trans h2) (by simp)
  mask := by
    intro hd
    rcases h'.mask hd with hb | hb
    · exact h.mask hb
    · rw [h.relay] at hb
      exact Or.inr hb

theorem RelayCalm.trans {a b d : Relay} (h : RelayCalm a b) (h' : RelayCalm b d) :
    RelayCalm a d where
  args := h'.args.trans h.args
  streamId := h'.streamId.trans h.streamId
  isAttached := fun hd => h.isAttached (h'.isAttached hd)
  tmrConnectd := by
    intro hd
    obtain ⟨hb, hh'⟩ := h'.tmrConnectd hd
    obtain ⟨ha, hh⟩ := h.tmrConnectd hb
    exact ⟨ha, hh'.trans hh⟩

theorem StreamCalm.trans {a b d : Stream} (h : StreamCalm a b) (h' : StreamCalm b d) :
    StreamCalm a d :=
  ⟨fun r hd => h.userData r (h'.userData r hd), fun hd => h.shutRd (h'.shutRd hd)⟩

/-- A client that is gone stays away. -/
theorem Calm.clients_none (h : Calm w w') (hc : w.clients c = none) : w'.clients c = none := by
  cases hc' : w'.clients c with
  | none => rfl
  | some cl' =>
    obtain ⟨cl, hcl, _⟩ := h.clients c cl' hc'
    rw [hc] at hcl
    exact absurd hcl (by simp)

theorem Calm.refl (w : World) : Calm w w where
  clients := fun _ cl h => ⟨cl, h, .refl cl⟩
  relays := fun _ rel h => ⟨rel, h, .refl rel⟩
  streams := fun _ st h => ⟨st, h, .refl st⟩
  waiting := fun _ rel h ht => Or.inl ⟨rel, h, ht⟩
  nextClient := rfl
  trace := ⟨[], (List.append_nil _).symm, by simp⟩

theorem Calm.trans (h : Calm w w') (h' : Calm w' w'') : Calm w w'' where
  clients := by
    intro c cl'' hc
    obtain ⟨cl', hc', hk'⟩ := h'.clients c cl'' hc
    obtain ⟨cl, hc0, hk⟩ := h.clients c cl' hc'
    exact ⟨cl, hc0, hk.trans hk'⟩
  relays := by
    intro r rel'' hr
    obtain ⟨rel', hr', hk'⟩ := h'.relays r rel'' hr
    obtain ⟨rel, hr0, hk⟩ := h.relays r rel' hr'
    exact ⟨rel, hr0, hk.trans hk'⟩
  streams := by
    intro s st'' hs
    obtain ⟨st', hs', hk'⟩ := h'.streams s st'' hs
    obtain ⟨st, hs0, hk⟩ := h.streams s st' hs'
    exact ⟨st, hs0, hk.trans hk'⟩
  waiting := by
    intro r rel hr ht
    rcases h.waiting r rel hr ht with ⟨rel', hr', ht'⟩ | hs | hc
    · have hargs : rel'.args = rel.args := by
        obtain ⟨rel0, hr0, hk⟩ := h.relays r rel' hr'
        rw [hr, Option.some.injEq] at hr0
        rw [hr0]
        exact hk.args
      rcases h'.waiting r rel' hr' ht' with hr'' | ⟨s, st', hs', hu'⟩ | hc
      · exact Or.inl hr''
      · -- a stream that names the relay afterwards named it before
        obtain ⟨st, hs, hk⟩ := h.streams s st' hs'
        exact Or.inr (Or.inl ⟨s, st, hs, hk.userData r hu'⟩)
      · rw [hargs] at hc
        exact Or.inr (Or.inr hc)
    · exact Or.inr (Or.inl hs)
    · exact Or.inr (Or.inr (h'.clients_none hc))
  nextClient := h'.nextClient.trans h.nextClient
  trace := by
    obtain ⟨os, ht, ho⟩ := h.trace
    obtain ⟨os', ht', ho'⟩ := h'.trace
    refine ⟨os ++ os', by rw [ht', ht, List.append_assoc], fun o hmem => ?_⟩
    rcases List.mem_append.mp hmem with hmem | hmem
    · exact ho o hmem
    · exact ho' o hmem

/-! ### Elementary changes -/

/-- What the tunnel and the answers to come are does not matter. -/
theorem calm_of_eq (hc : w'.clients = w.clients) (hr : w'.relays = w.relays)
    (hs : w'.streams = w.streams) (hn : w'.nextClient = w.nextClient)
    (ht : ∃ os, w'.trace = w.trace ++ os ∧ ∀ o ∈ os, o.neutral = true) : Calm w w' where
  clients := by
    rw [hc]
    exact (Calm.refl w).clients
  relays := by
    rw [hr]
    exact (Calm.refl w).relays
  streams := by
    rw [hs]
    exact (Calm.refl w).streams
  waiting := by
    rw [hr, hc]
    exact (Calm.refl w).waiting
  nextClient := hn
  trace := ht

/-- A neutral observation is noted. -/
theorem calm_log {o : Obs} (ho : o.neutral = true) : Calm w (w.log o) :=
  calm_of_eq rfl rfl rfl rfl ⟨[o], rfl, by simpa using ho⟩

theorem calm_setSends (sends : List SendResult) : Calm w (w.setSends sends) :=
  calm_of_eq rfl rfl rfl rfl (Calm.refl w).trace

theorem calm_setTunnel (t : Tunnel) (b : Bool) : Calm w (w.setTunnel t b) :=
  calm_of_eq rfl rfl rfl rfl (Calm.refl w).trace

theorem calm_setGoaway : Calm w w.setGoaway :=
  calm_of_eq rfl rfl rfl rfl (Calm.refl w).trace

theorem calm_setClient {cl cl' : Client} (hc : w.clients c = some cl) (hk : ClientCalm cl cl') :
    Calm w (w.setClient c (some cl')) :=
  { Calm.refl w with
    clients := by
      intro c' cl1 hc'
      rw [World.setClient_clients, Function.update_apply] at hc'
      split_ifs at hc' with he
      · rw [Option.some.injEq] at hc'
        exact ⟨cl, he ▸ hc, hc' ▸ hk⟩
      · exact ⟨cl1, hc', .refl cl1⟩
    waiting := fun _ rel hr ht => Or.inl ⟨rel, hr, ht⟩ }

theorem calm_dropClient (c : ClientId) : Calm w (w.setClient c none) :=
  { Calm.refl w with
    clients := by
      intro c' cl hc'
      rw [World.setClient_clients, Function.update_apply] at hc'
      split_ifs at hc'
      exact ⟨cl, hc', .refl cl⟩
    waiting := fun _ rel hr ht => Or.inl ⟨rel, hr, ht⟩ }

/-- A change of a relay; its timer may fire when its client is gone. -/
theorem calm_setRelay {rel rel' : Relay} (hr : w.relays r = some rel) (hk : RelayCalm rel rel')
    (ht : rel.tmrConnectd = true → rel'.tmrConnectd = true ∨ w.clients rel.args = none) :
    Calm w (w.setRelay r rel') :=
  { Calm.refl w with
    relays := by
      intro r' rel1 hr'
      rw [World.setRelay_relays, Function.update_apply] at hr'
      split_ifs at hr' with he
      · rw [Option.some.injEq] at hr'
        exact ⟨rel, he ▸ hr, hr' ▸ hk⟩
      · exact ⟨rel1, hr', .refl rel1⟩
    waiting := by
      intro r' rel1 hr' ht'
      rw [World.setRelay_relays, Function.update_apply]
      split_ifs with he
      · rw [he, hr, Option.some.injEq] at hr'
        rw [← hr'] at ht' ⊢
        rcases ht ht' with h | h
        · exact Or.inl ⟨rel', rfl, h⟩
        · exact Or.inr (Or.inr h)
      · exact Or.inl ⟨rel1, hr', ht'⟩ }

theorem calm_mapStream (s : StreamId) (f : Stream → Stream) (hf : ∀ st, StreamCalm st (f st)) :
    Calm w (w.mapStream s f) :=
  { Calm.refl w with
    streams := by
      intro s' st' hs'
      obtain ⟨st, hst, rfl⟩ := World.mapStream_eq_some hs'
      refine ⟨st, hst, ?_⟩
      split_ifs
      · exact hf st
      · exact .refl st
    waiting := fun _ rel hr ht => Or.inl ⟨rel, hr, ht⟩ }

/-- A relay is freed that does not wait, or whose client is gone. -/
theorem calm_removeRelay {rel : Relay} (hr : w.relays r = some rel)
    (ht : rel.tmrConnectd = true → w.clients rel.args = none) : Calm w (w.removeRelay r) :=
  { Calm.refl w with
    relays := by
      intro r' rel' hr'
      rw [World.removeRelay_relays, Function.update_apply] at hr'
      split_ifs at hr'
      exact ⟨rel', hr', .refl rel'⟩
    waiting := by
      intro r' rel' hr' ht'
      rw [World.removeRelay_relays, Function.update_apply]
      split_ifs with he
      · rw [he, hr, Option.some.injEq] at hr'
        rw [← hr'] at ht' ⊢
        exact Or.inr (Or.inr (ht ht'))
      · exact Or.inl ⟨rel', hr', ht'⟩ }

theorem calm_freed {rel : Relay} (hr : w.relays r = some rel)
    (ht : rel.tmrConnectd = true → w.clients rel.args = none) : Calm w (freed w r rel) := by
  have hs : Calm w (w.mapStream rel.streamId ({ · with userData := none })) :=
    calm_mapStream _ _ fun _ => ⟨fun _ h => absurd h (by simp), id⟩
  exact hs.trans (calm_removeRelay hr ht)

/-- Sending frees only relays that a stream names. -/
theorem Sent.calm (h : Sent D w w') : Calm w w' where
  clients := by
    rw [h.clients_eq]
    exact (Calm.refl w).clients
  relays := by
    intro r rel' hr'
    obtain ⟨rel, hr, _, q, rfl⟩ := h.relays r rel' hr'
    exact ⟨rel, hr, rfl, rfl, id, fun ht => ⟨ht, rfl⟩⟩
  streams := by
    intro s st' hs'
    obtain ⟨st, hs, hk, _⟩ := h.streams s st' hs'
    refine ⟨st, hs, fun r => hk.userData_of_some, fun hsh => ?_⟩
    rw [← hk.shutRd]
    exact hsh
  waiting := by
    intro r rel hr ht
    cases hr' : w'.relays r with
    | none =>
      obtain ⟨s, st, hs, hu, _⟩ := h.freed r rel hr hr'
      exact Or.inr (Or.inl ⟨s, st, hs, hu⟩)
    | some rel' =>
      obtain ⟨rel0, hr0, _, q, rfl⟩ := h.relays r rel' hr'
      rw [hr, Option.some.injEq] at hr0
      rw [hr0] at ht
      exact Or.inl ⟨_, rfl, ht⟩
  nextClient := h.nextClient
  trace := ⟨[], by rw [h.trace, List.append_nil], by simp⟩

theorem Wrote.calm {f : Relay → Relay} (hw : Wrote r f w w')
    (hf : ∀ rel, RelayCalm rel (f rel) ∧ (f rel).tmrConnectd = rel.tmrConnectd) : Calm w w' := by
  rcases hw with ⟨rel, hr, rfl⟩ | ⟨_, rfl⟩
  · refine calm_setRelay hr (hf rel).1 fun ht => Or.inl ?_
    rw [(hf rel).2]
    exact ht
  · exact calm_log rfl

/-- A client that keeps its control state stays at its requests; its mask may change while it has a
relay. -/
theorem ClientCalm.of_ctl {cl cl' : Client} (hk : CtlKept cl cl')
    (hm : wantsWrite cl'.file.mask = true → wantsWrite cl.file.mask = true ∨ cl.relay ≠ none) :
    ClientCalm cl cl' :=
  ⟨hk.relaySys, hk.relay, hk.requestHeader, hk.pendingRequestHeader, hk.reqNo, Or.inl hk.parser, hm⟩

/-- Writing to a client that has a relay. -/
theorem Written.calm {cl cl' : Client} (hw : Written c cl cl' w w') (hr : cl.relay ≠ none) :
    Calm w w' := by
  obtain ⟨sends, hc, hws, rfl⟩ := hw
  have h1 : Calm w (w.setSends sends) := calm_setSends sends
  exact h1.trans (calm_setClient hc (.of_ctl hws.ctl fun _ => Or.inr hr))

/-! ### Calm handlers -/

/-- The header of a relay that no longer waits is announced. -/
theorem HdrPhase.calm {ends : Bool} (hp : HdrPhase ends r w w')
    (ht : ∀ rel, w.relays r = some rel → rel.tmrConnectd = false) : Calm w w' := by
  obtain ⟨rel, rel1, cl, r1, data, hr, hk, hc, hcr, _, _, rfl⟩ := hp
  obtain ⟨hk1, hid⟩ := hk.kept
  have hno : rel1.tmrConnectd = false := hk1.tmrConnectd.trans (ht rel hr)
  have hrel : RelayCalm rel { rel1 with relayStatus := .headerComplete } :=
    ⟨hk1.args, hid, fun ha => hk1.isAttached ▸ ha, fun h => absurd (hno.symm.trans h) (by simp)⟩
  have h0 : Calm w (heading w r rel1) := by
    refine (calm_setRelay hr hrel fun h => ?_).trans (calm_log rfl)
    rw [ht rel hr] at h
    exact absurd h (by simp)
  have hw := written_wroteTo (w := H2ClientProxy.heading w r rel1) hc data
  exact h0.trans (hw.calm (by rw [hcr]; simp))

theorem calm_ending {rel : Relay} (hr : w.relays r = some rel) : Calm w (ending w r rel) := by
  have h0 : Calm w (w.setRelay r { rel with relayStatus := .msgComplete }) :=
    calm_setRelay hr ⟨rfl, rfl, id, fun h => ⟨h, rfl⟩⟩ Or.inl
  exact h0.trans (calm_log rfl)

theorem ShutRd.calm {s : StreamId} (hs : ShutRd s w w') : Calm w w' := by
  have h0 : Calm w (w.mapStream s ({ · with shutRd := true })) :=
    calm_mapStream _ _ fun _ => ⟨fun _ => id, fun h => absurd h (by simp)⟩
  exact h0.trans (Sent.calm hs)

theorem Dropped.calm (hd : Dropped c w w') : Calm w w' := by
  obtain ⟨cl, hc, ⟨_, rfl⟩ | ⟨r, rel, w1, w2, hr, hrel, h1, h2, rfl⟩⟩ := hd
  · exact calm_dropClient c
  · have hw1 : Calm w w1 := (calm_log rfl).trans h1.calm
    have hw2 : Calm w1 w2 :=
      h2.calm fun _ => ⟨⟨rfl, rfl, fun h => absurd h (by simp), fun h => ⟨h, rfl⟩⟩, rfl⟩
    exact (hw1.trans hw2).trans (calm_dropClient c)

theorem Resumed.calm (hr : Resumed r w w') : Calm w w' := by
  obtain ⟨rel, w1, _, h1, h2⟩ := hr
  have hw1 : Calm w w1 := by
    rcases h1 with ⟨rfl, _⟩ | h1
    · exact .refl _
    · have h0 : Calm w (w.mapStream rel.streamId ({ · with recvLen := 0 })) :=
        calm_mapStream _ _ fun _ => ⟨fun _ => id, id⟩
      exact h0.trans h1.calm
  exact hw1.trans (h2.calm fun _ => ⟨⟨rfl, rfl, id, fun h => ⟨h, rfl⟩⟩, rfl⟩)

/-- Emptying the queue never registers the client for a writable event. -/
theorem afterDrain_mask (cl : Client) (out : DrainOut)
    (hm : wantsWrite (afterDrain cl out).file.mask = true) : wantsWrite cl.file.mask = true := by
  unfold afterDrain at hm
  split_ifs at hm
  · rw [epFileDetect_mask, show epFileGetDetect cl.file &&& 0 = 0 from BitVec.and_zero] at hm
    exact absurd hm (by decide)
  · exact hm

theorem WritableDone.calm (hd : WritableDone c w w') : Calm w w' := by
  have hsend : ∀ sends cl cl', w.clients c = some cl → CtlKept cl cl' →
      (wantsWrite cl'.file.mask = true → wantsWrite cl.file.mask = true) →
      Calm w ((w.setSends sends).setClient c (some cl')) := by
    intro sends cl cl' hc hk hm
    have h0 : Calm w (w.setSends sends) := calm_setSends sends
    exact h0.trans (calm_setClient hc (.of_ctl hk fun h => Or.inl (hm h)))
  cases hd with
  | empty hc hq hr hres => exact hres.calm
  | error hc hq hout herr hdrop =>
    exact (hsend _ _ _ hc (drainedClient_ctl _ _) id).trans hdrop.calm
  | full hc hq hout herr hlen hw =>
    exact hw ▸ hsend _ _ _ hc (afterDrain_ctl _ _) (afterDrain_mask _ _)
  | resumed hc hq hout herr hlen hr hres =>
    exact (hsend _ _ _ hc (afterDrain_ctl _ _) (afterDrain_mask _ _)).trans hres.calm

theorem BodiesWritten.calm {bs : List BodyBuffer} (hb : BodiesWritten c r bs w w') :
    Calm w w' := by
  induction hb with
  | nil => exact .refl _
  | cons h1 _ ih => exact ((calm_log rfl).trans h1.calm).trans ih

theorem calm_chunked {rel : Relay} (hr : w.relays r = some rel) (s : StreamId) (data : Bytes) :
    Calm w (chunked w s r rel data) := by
  have h0 : Calm w (w.mapStream s fun st => { st with recvLen := st.recvLen + data.length }) :=
    calm_mapStream _ _ fun _ => ⟨fun _ => id, id⟩
  have h1 : Calm _ ((w.mapStream s fun st =>
      { st with recvLen := st.recvLen + data.length }).setRelay r { rel with bodyData := data }) :=
    calm_setRelay hr ⟨rfl, rfl, id, fun h => ⟨h, rfl⟩⟩ Or.inl
  exact (h0.trans h1).trans (calm_log rfl)

theorem BodyDone.calm (hb : BodyDone c w w') : Calm w w' := by
  obtain ⟨cl, r, rel, cl1, w1, hr, hrel, hw, hend⟩ := hb
  have h1 : Calm w w1 := hw.calm (by rw [hr]; simp)
  rcases hend with ⟨_, rfl⟩ | ⟨_, rfl⟩
  · have hrel1 : w1.relays r = some rel := by
      rw [hw.relays]
      exact hrel
    exact h1.trans (calm_setRelay hrel1 ⟨rfl, rfl, id, fun h => ⟨h, rfl⟩⟩ Or.inl)
  · exact h1

theorem ChunkDone.calm {s : StreamId} {st : Stream} {data : Bytes}
    (hc : ChunkDone w s st data w') : Calm w w' := by
  cases hc with
  | ignored => exact calm_mapStream _ _ fun _ => ⟨fun _ => id, id⟩
  | @written r rel rel1 w1 w2 _ hu hr ha h1 hr1 h2 h3 =>
    have hw1 : Calm w w1 := (calm_chunked hr s data).trans h1.calm
    have hw2 : Calm w1 w2 := by
      split_ifs at h2
      · exact h2 ▸ calm_mapStream _ _ fun _ => ⟨fun _ => id, id⟩
      · exact h2 ▸ .refl _
    exact (hw1.trans hw2).trans h3.calm

/-- The client of a relay that failed is dropped, and the relay freed. -/
theorem calm_failed {rel : Relay} (hr : w.relays r = some rel) : Calm w
    (freed ((w.log (.event r .errConnFailed rel.responseHeader rel.bodyData)).setClient
      rel.args none) r rel) := by
  have h0 : Calm w ((w.log (.event r .errConnFailed rel.responseHeader rel.bodyData)).setClient
      rel.args none) := (calm_log rfl).trans (calm_dropClient _)
  exact h0.trans (calm_freed hr fun _ => Function.update_self ..)

theorem RstReported.calm {userData : Option RelayId} (hr : RstReported w userData w') :
    Calm w w' := by
  cases hr with
  | ignored => exact .refl _
  | dropped hu hr ha hc => exact calm_failed hr

/-- The timer of a relay fires, and its client is dropped. -/
theorem calm_timerFailed {rel : Relay} (hr : w.relays r = some rel) (what : RelayWhat) :
    Calm w ((timed w r rel what).setClient rel.args none) := by
  have h0 : Calm w (w.setClient rel.args none) := calm_dropClient _
  have h1 : Calm (w.setClient rel.args none)
      ((w.setClient rel.args none).setRelay r { rel with tmrConnectd := false }) :=
    calm_setRelay hr ⟨rfl, rfl, id, fun h => absurd h (by simp)⟩
      fun _ => Or.inr (Function.update_self ..)
  have h2 : Calm _ (((w.setClient rel.args none).setRelay r
      { rel with tmrConnectd := false }).log (.event r what rel.responseHeader rel.bodyData)) :=
    calm_log rfl
  exact (h0.trans h1).trans h2

/-! ### The invariant -/

/-- Where a client stands between the end of a header block and the submission of its request.  A
relay whose timer is pending is the current one of its client, no stream names it, and what it has
of a response header does not keep its client. -/
structure Timely (w : World) : Prop where
  head : ∀ c cl, w.clients c = some cl → cl.parser = .head →
    cl.pendingRequestHeader.map Header.id = none → cl.relay = none
  pending : ∀ c cl, w.clients c = some cl →
    cl.pendingRequestHeader.map Header.id ≠ none → cl.relay ≠ none
  current : ∀ r rel cl, w.relays r = some rel → rel.tmrConnectd = true →
    w.clients rel.args = some cl → cl.relay = some r
  unsent : ∀ r rel, w.relays r = some rel → rel.tmrConnectd = true →
    keepsClient rel.responseHeader = false ∧ ∀ s st, w.streams s = some st → st.userData ≠ some r
  args_lt : ∀ r rel, w.relays r = some rel → rel.args < w.nextClient

theorem timely_init : Timely World.init := by
  constructor <;> simp [World.init]

/-- A stream names only relays that no longer wait. -/
theorem Timely.submitted {s : StreamId} {st : Stream} {rel : Relay} (h : Timely w)
    (hs : w.streams s = some st) (hu : st.userData = some r) (hr : w.relays r = some rel) :
    rel.tmrConnectd = false := by
  rw [← Bool.not_eq_true]
  intro ht
  exact (h.unsent r rel hr ht).2 s st hs hu

/-- A relay that keeps its client has been submitted. -/
theorem Timely.of_keepsClient {rel : Relay} (h : Timely w) (hr : w.relays r = some rel)
    (hk : keepsClient rel.responseHeader = true) : rel.tmrConnectd = false := by
  rw [← Bool.not_eq_true]
  intro ht
  rw [(h.unsent r rel hr ht).1] at hk
  exact absurd hk (by simp)

/-- **A calm change keeps the invariant.** -/
theorem Timely.calm (h : Timely w) (hk : Calm w w') : Timely w' where
  head := by
    intro c cl' hc' hp hn
    obtain ⟨cl, hc, hcl⟩ := hk.clients c cl' hc'
    rw [hcl.pendingRequestHeader] at hn
    rw [hcl.relay]
    rcases hcl.parser with he | ⟨_, he⟩
    · exact h.head c cl hc (he.symm.trans hp) hn
    · exact absurd (he.symm.trans hp) (by simp)
  pending := by
    intro c cl' hc' hn
    obtain ⟨cl, hc, hcl⟩ := hk.clients c cl' hc'
    rw [hcl.pendingRequestHeader] at hn
    rw [hcl.relay]
    exact h.pending c cl hc hn
  current := by
    intro r rel' cl' hr' ht' hc'
    obtain ⟨rel, hr, hrel⟩ := hk.relays r rel' hr'
    obtain ⟨cl, hc, hcl⟩ := hk.clients _ cl' hc'
    rw [hrel.args] at hc
    rw [hcl.relay]
    exact h.current r rel cl hr (hrel.tmrConnectd ht').1 hc
  unsent := by
    intro r rel' hr' ht'
    obtain ⟨rel, hr, hrel⟩ := hk.relays r rel' hr'
    obtain ⟨ht, hhdr⟩ := hrel.tmrConnectd ht'
    obtain ⟨h1, h2⟩ := h.unsent r rel hr ht
    refine ⟨by rw [hhdr]; exact h1, fun s st' hs' hu' => ?_⟩
    obtain ⟨st, hs, hst⟩ := hk.streams s st' hs'
    exact h2 s st hs (hst.userData r hu')
  args_lt := by
    intro r rel' hr'
    obtain ⟨rel, hr, hrel⟩ := hk.relays r rel' hr'
    rw [hk.nextClient, hrel.args]
    exact h.args_lt r rel hr

/-- A relay that waits and is detached has lost its client. -/
theorem Timely.detached {rel : Relay} (h : Timely w) (hl : Linked w) (hr : w.relays r = some rel)
    (ha : rel.isAttached = false) (ht : rel.tmrConnectd = true) : w.clients rel.args = none := by
  cases hc : w.clients rel.args with
  | none => rfl
  | some cl =>
    have hcur : cl.relay = some r := h.current r rel cl hr ht hc
    have hatt : rel.isAttached = true := ((hl.current _ cl r hc hcur).2 rel hr).2
    rw [ha] at hatt
    exact absurd hatt (by simp)

theorem Timely.dropOne (h : Timely w) (hl : Linked w) (hd : DropOne r w w') : Calm w w' := by
  cases hd with
  | attached hr ha hc => exact calm_failed hr
  | detached hr ha => exact calm_freed hr (h.detached hl hr ha)

theorem Timely.dropClients {rs : List RelayId} (h : Timely w) (hl : Linked w)
    (hd : DropClients rs w w') : Calm w w' := by
  induction hd with
  | nil => exact .refl _
  | cons h1 _ ih =>
    have hk := h.dropOne hl h1
    exact hk.trans (ih (h.calm hk) (hl.dropOne h1))

/-! ### The end of a response -/

/-- The client and the answers of `send()` after the head of the response was written, if the frame
announces it. -/
def headed (cl : Client) (sends : List SendResult) (frame : Frame) (hdr : Header) :
    Client × List SendResult :=
  if frame.announces then
    let out := writeClient cl sends ((responseHead hdr).getD [])
    (out.client, out.sends)
  else (cl, sends)

/-- The client after everything that the frame which ends its response makes it write. -/
def answered (cl : Client) (sends : List SendResult) (frame : Frame) (hdr : Header) : Client :=
  let out := headed cl sends frame hdr
  if isChunked hdr then (writeClient out.1 out.2 lastChunk).client else out.1

/-- The frame arrives on an open stream, is reported to the relay `r`, and is taken for the end of its
response. -/
structure EndFrame (w : World) (s : StreamId) (frame : Frame) (st : Stream) (r : RelayId)
    (rel : Relay) : Prop where
  tunnel : w.tunnel = .connected
  stream : w.streams s = some st
  isOpen : (st.shutRd || st.closing) = false
  userData : st.userData = some r
  relay : w.relays r = some rel
  isAttached : rel.isAttached = true
  completes : frame.completes = true

/-- What such a frame does: the header of `r` may be announced, then the client of `r` leaves its
relay. -/
def Ends (r : RelayId) (frame : Frame) (w w' : World) : Prop :=
  ∃ w1, (if frame.announces then HdrPhase frame.endStream r w w1 else w1 = w) ∧ MsgPhase r w1 w'

theorem headed_ctl (cl : Client) (sends : List SendResult) (frame : Frame) (hdr : Header) :
    CtlKept cl (headed cl sends frame hdr).1 := by
  unfold headed
  split_ifs
  · exact writeClient_ctl _ _ _
  · exact Std.Refl.refl cl

theorem answered_ctl (cl : Client) (sends : List SendResult) (frame : Frame) (hdr : Header) :
    CtlKept cl (answered cl sends frame hdr) := by
  have h1 := headed_ctl cl sends frame hdr
  unfold answered
  split_ifs
  · exact IsTrans.trans _ _ _ h1 (writeClient_ctl _ _ _)
  · exact h1

/-- A frame that ends a response and announces its header carries `END_STREAM`. -/
theorem Frame.endStream_of_announces {frame : Frame} (h : frame.announces = true)
    (hcomp : frame.completes = true) : frame.endStream = true := by
  cases frame with
  | headers flags => exact hcomp
  | _ => exact absurd h (by simp [announces])

/-- The world in which the end of the response of `r` is reported, and the client `cl` there; `cur` is
the relay that the client is at. -/
structure Headed (r : RelayId) (frame : Frame) (rel : Relay) (cl : Client) (cur : Relay)
    (w w1 : World) : Prop where
  linked : Linked w → Linked w1
  client : w1.clients rel.args = some (headed cl w.sends frame cur.responseHeader).1
  sends : w1.sends = (headed cl w.sends frame cur.responseHeader).2
  cur : ∀ r1, w.relays r1 = some cur →
    ∃ cur1, w1.relays r1 = some cur1 ∧ cur1.responseHeader = cur.responseHeader

/-- The header phase of such a frame. -/
theorem Headed.of_phase {frame : Frame} {rel : Relay} {w1 : World} (hcomp : frame.completes = true)
    (hr : w.relays r = some rel)
    (h1 : if frame.announces then HdrPhase frame.endStream r w w1 else w1 = w) {cl : Client}
    {r1 : RelayId} {cur : Relay} (hc : w.clients rel.args = some cl) (hcr : cl.relay = some r1)
    (hcur : w.relays r1 = some cur) : Headed r frame rel cl cur w w1 := by
  split_ifs at h1 with ha
  · have hlink : Linked w → Linked w1 := fun hl => hl.hdrPhase h1
    rw [Frame.endStream_of_announces ha hcomp] at h1
    obtain ⟨rel0, rel1, cl0, r2, data, hr0, hk, hc0, hcr0, _, ⟨rel2, hrel2, hdata⟩, rfl⟩ := h1
    rw [hr, Option.some.injEq] at hr0
    subst hr0
    -- with `END_STREAM` the header is left as it is
    have hrel1 : rel1 = rel := by
      rcases hk with rfl | ⟨hf, _⟩
      · rfl
      · exact absurd hf (by simp)
    subst hrel1
    rw [hc, Option.some.injEq] at hc0
    subst hc0
    rw [hcr, Option.some.injEq] at hcr0
    subst hcr0
    have hkept : ∀ r' rel', w.relays r' = some rel' → ∃ rel'',
        (heading w r rel1).relays r' = some rel'' ∧
          rel''.responseHeader = rel'.responseHeader := by
      intro r' rel' hr'
      show ∃ rel'', Function.update w.relays r _ r' = some rel'' ∧ _
      rw [Function.update_apply]
      split_ifs with he
      · rw [he, hr, Option.some.injEq] at hr'
        exact ⟨_, rfl, by rw [← hr']⟩
      · exact ⟨rel', hr', rfl⟩
    have hhead : responseHead cur.responseHeader = some data := by
      obtain ⟨cur', hcur', hhdr⟩ := hkept r1 cur hcur
      rw [hrel2, Option.some.injEq] at hcur'
      rw [← hhdr, ← hcur']
      exact hdata
    have hout : headed cl w.sends frame cur.responseHeader
        = ((writeClient cl w.sends data).client, (writeClient cl w.sends data).sends) := by
      unfold headed
      rw [if_pos ha, hhead, Option.getD_some]
    refine ⟨hlink, ?_, by rw [hout]; rfl, ?_⟩
    · rw [hout]
      exact Function.update_self ..
    · exact fun r' hr' => hkept r' cur hr'
  · subst h1
    have hout : headed cl w1.sends frame cur.responseHeader = (cl, w1.sends) := by
      unfold headed
      rw [if_neg ha]
    refine ⟨id, by rw [hout]; exact hc, by rw [hout], ?_⟩
    exact fun r' hr' => ⟨cur, hr', rfl⟩

/-- How a response ends for the client `cl` that is at the relay `cur`: it is dropped, or leaves that
relay once everything has been written. -/
inductive Finished (frame : Frame) (c : ClientId) (cl : Client) (cur : Relay) (w w' : World) : Prop
  | dropped (hk : keepsClient cur.responseHeader = false) (hcalm : Calm w w')
      (hc : w'.clients c = none) : Finished frame c cl cur w w'
  | left {w1 : World} (hk : keepsClient cur.responseHeader = true) (hcalm : Calm w w1)
      (hlink : Linked w → Linked w1)
      (hc : w1.clients c = some (answered cl w.sends frame cur.responseHeader))
      (hn : Next c w1 w') : Finished frame c cl cur w w'

/-- What `Ends` comes to. -/
theorem Ends.finished {frame : Frame} {rel : Relay} (hE : Ends r frame w w')
    (hcomp : frame.completes = true) (hr : w.relays r = some rel) (ht : rel.tmrConnectd = false) :
    ∃ cl r1 cur, w.clients rel.args = some cl ∧ cl.relay = some r1 ∧ w.relays r1 = some cur ∧
      Finished frame rel.args cl cur w w' := by
  obtain ⟨w1, h1, relx, hrx, cl1, r1, cur1, w3, hc1, hcr1, hcur1, hw3, hend⟩ := hE
  have hcalm1 : Calm w w1 := by
    split_ifs at h1
    · refine h1.calm fun rel' hr' => ?_
      rw [hr, Option.some.injEq] at hr'
      rw [← hr']
      exact ht
    · exact h1 ▸ .refl _
  have hcalm : Calm w (ending w1 r relx) := hcalm1.trans (calm_ending hrx)
  -- the client and its relay were there before the frame
  have hargs : relx.args = rel.args := by
    obtain ⟨rel0, hr0, hk⟩ := hcalm1.relays r relx hrx
    rw [hr, Option.some.injEq] at hr0
    rw [hr0]
    exact hk.args
  rw [hargs] at hc1 hw3 hend
  obtain ⟨cl, hc, hcl⟩ := hcalm.clients _ cl1 hc1
  have hcr : cl.relay = some r1 := hcl.relay.symm.trans hcr1
  obtain ⟨cur, hcur, _⟩ := hcalm.relays r1 cur1 hcur1
  have hh := Headed.of_phase hcomp hr h1 hc hcr hcur
  have hcl1 : cl1 = (headed cl w.sends frame cur.responseHeader).1 :=
    Option.some.inj (hc1.symm.trans hh.client)
  have hhdr : cur1.responseHeader = cur.responseHeader := by
    obtain ⟨cur2, hcur2, he⟩ := hh.cur r1 hcur
    have hcur1' : Function.update w1.relays r (some { relx with relayStatus := .msgComplete }) r1
        = some cur1 := hcur1
    rw [Function.update_apply] at hcur1'
    split_ifs at hcur1' with he'
    · rw [he', hrx, Option.some.injEq] at hcur2
      rw [← he, ← hcur2, ← Option.some.inj hcur1']
    · rw [hcur1', Option.some.injEq] at hcur2
      rw [hcur2, he]
  rw [hhdr] at hw3 hend
  refine ⟨cl, r1, cur, hc, hcr, hcur, ?_⟩
  rcases hend with ⟨hk, rfl⟩ | ⟨hk, hn⟩
  · exact .dropped hk (hcalm.trans (calm_dropClient _)) (Function.update_self ..)
  have hlink : Linked w → Linked (ending w1 r relx) := fun hl => (hh.linked hl).ending hrx
  rcases hw3 with ⟨hch, rfl⟩ | ⟨hch, rfl⟩
  · refine .left hk hcalm hlink ?_ hn
    rw [answered, hch, if_neg Bool.false_ne_true, ← hcl1]
    exact hc1
  · have hw := written_wroteTo hc1 lastChunk
    refine .left hk (hcalm.trans (hw.calm (by rw [hcr1]; simp)))
      (fun hl => (hlink hl).quiet (D := fun _ => False) hw.quiet) ?_ hn
    rw [answered, if_pos hch, ← hcl1, ← hh.sends]
    exact hw.clients_self

/-! ### The submission of a request -/

/-- The timer of the relay `r` has fired, and its client submits its header to it. -/
def launched (w : World) (r : RelayId) (rel : Relay) (cl : Client) (h : Header) : World :=
  submitted (connecting (timed w r rel .connected) rel.args cl r h) r
    { rel with tmrConnectd := false } h

section Launched

variable (r : RelayId) (rel : Relay) (cl : Client) (h : Header)

@[simp]
theorem launched_clients : (launched w r rel cl h).clients
    = Function.update w.clients rel.args (some { cl with
        file := epFileDetect cl.file EP_READ (-1), listRequestBodyBuffer := [] }) := by
  rw [launched, submitted_clients]
  rfl

@[simp]
theorem launched_relays : (launched w r rel cl h).relays
    = Function.update w.relays r (some { rel with
        tmrConnectd := false, requestHeader := some h, streamId := w.nextStreamId }) := by
  rw [launched, submitted_relays]
  exact Function.update_idem ..

@[simp]
theorem launched_streams : (launched w r rel cl h).streams
    = Function.update w.streams w.nextStreamId
        (some (requestStream (requestHasProvider h) r w.refusesRequests)) := by
  rw [launched, submitted_streams]
  rfl

@[simp]
theorem launched_nextClient : (launched w r rel cl h).nextClient = w.nextClient := by
  rw [launched, submitted_nextClient]
  rfl

@[simp]
theorem launched_trace : (launched w r rel cl h).trace = w.trace ++
    [Obs.event r .connected rel.responseHeader rel.bodyData, .sendRequest r rel.args h.id] := by
  rw [launched, submitted_trace]
  exact List.append_assoc ..

end Launched

theorem Linked.launched {rel : Relay} {cl : Client} (hl : Linked w) (hr : w.relays r = some rel)
    (hc : w.clients rel.args = some cl) (hd : Header) :
    Linked (H2ClientProxy.launched w r rel cl hd) := by
  have h0 : Linked (H2ClientProxy.connecting (H2ClientProxy.timed w r rel .connected) rel.args cl r hd) :=
    (hl.timed hr .connected).connecting hc r hd
  exact h0.submitted (Function.update_self ..) hd

/-- After its request is queued the session sends, and a relay only learns that it was sent. -/
theorem Submits.calm {cl : Client} {hd : Header} {rel : Relay} (hs : Submits c cl r hd rel w w') :
    Calm (submitted (connecting w c cl r hd) r rel hd) w' := by
  obtain ⟨w1, h1, h2⟩ := hs.sent
  exact h1.calm.trans (h2.calm fun _ => ⟨⟨rfl, rfl, id, fun h => ⟨h, rfl⟩⟩, rfl⟩)

/-- The client submits its request to the relay whose timer fired. -/
theorem Timely.launched {rel rel1 : Relay} {cl : Client} {r1 : RelayId} {hd : Header}
    (h : Timely w) (hr : w.relays r = some rel) (ht : rel.tmrConnectd = true)
    (hs : Submits rel.args cl r1 hd rel1 (timed w r rel .connected) w') :
    w.clients rel.args = some cl ∧ cl.relay = some r ∧ cl.requestHeader = some hd ∧
      Calm (launched w r rel cl hd) w' := by
  have hc : w.clients rel.args = some cl := hs.client
  have hcur : cl.relay = some r := h.current r rel cl hr ht hc
  have hr1 : r1 = r := Option.some.inj (hs.current.symm.trans hcur)
  subst hr1
  have hrel1 : rel1 = { rel with tmrConnectd := false } := by
    have hself : (timed w r1 rel .connected).relays r1 = some { rel with tmrConnectd := false } :=
      Function.update_self ..
    exact Option.some.inj (hs.relay.symm.trans hself)
  subst hrel1
  exact ⟨hc, hcur, hs.header, hs.calm⟩

/-! ### Turns -/

/-- What one step can do to the clients and the relays that wait. -/
inductive Turn (w : World) : Event → World → Prop
  | calm {e : Event} {w' : World} (h : Calm w w') : Turn w e w'
  | accept : Turn w .accept
      (w.addClient { file := epFileDetect epFileCreate EP_READ (30 * 1000) })
  | msgBegin {c : ClientId} {cl cl' : Client} (hc : w.clients c = some cl)
      (hp : cl.parser = .idle) (h : Begun cl cl') :
      Turn w (.msgBegin c) (w.setClient c (some cl'))
  | headersComplete {c : ClientId} {method : Bytes} {cl : Client} {w' : World}
      (hc : w.clients c = some cl) (hp : cl.parser = .head) (h : HeadersDone c cl w w') :
      Turn w (.headersComplete c method) w'
  | launched {r : RelayId} {rel : Relay} {cl : Client} {hd : Header} {w' : World}
      (hr : w.relays r = some rel) (ht : rel.tmrConnectd = true)
      (hc : w.clients rel.args = some cl) (hcur : cl.relay = some r)
      (hh : cl.requestHeader = some hd) (h : Calm (launched w r rel cl hd) w') :
      Turn w (.timer r) w'
  | ended {s : StreamId} {frame : Frame} {st : Stream} {r : RelayId} {rel : Relay}
      {w1 w' : World} (hf : EndFrame w s frame st r rel) (h1 : Ends r frame w w1)
      (h2 : if frame.endStream then ShutRd s w1 w' else w' = w1) :
      Turn w (.recvFrame s frame) w'

/-- The report of a frame is calm unless it ends a response. -/
theorem Timely.reported {s : StreamId} {st : Stream} {frame : Frame} (h : Timely w)
    (ht : w.tunnel = .connected) (hs : w.streams s = some st)
    (hopen : (st.shutRd || st.closing) = false) (hr : Reported w st.userData frame w') :
    Calm w w' ∨ ∃ r rel, EndFrame w s frame st r rel ∧ Ends r frame w w' := by
  cases hr with
  | ignored => exact Or.inl (.refl _)
  | @phases r rel w1 _ hu hr ha h1 h2 =>
    split_ifs at h2 with hcomp
    · exact Or.inr ⟨r, rel, ⟨ht, hs, hopen, hu, hr, ha, hcomp⟩, w1, h1, h2⟩
    · subst h2
      refine Or.inl ?_
      split_ifs at h1
      · exact h1.calm fun rel' hr' => h.submitted hs hu hr'
      · exact h1 ▸ .refl _

/-- **What one step can do.** -/
theorem Timely.turn {e : Event} (h : Timely w) (hl : Linked w) (hh : Handled w e w') :
    Turn w e w' := by
  cases hh with
  | skip => exact .calm (.refl _)
  | accept => exact .accept
  | msgBegin hc hp hb => exact .msgBegin hc hp hb
  | reqHeader hc hk hs he =>
    refine .calm (calm_setClient hc (.of_ctl hk fun hm => Or.inl ?_))
    rw [← hs.file]
    exact hm
  | headersComplete hc hp hd => exact .headersComplete hc hp hd
  | bodyQueued hc hp hr hrel hst =>
    exact .calm (calm_setClient hc ⟨rfl, rfl, rfl, rfl, rfl, Or.inl rfl, Or.inl⟩)
  | bodyWritten hc hp hr hrel hst hs => exact .calm ((calm_log rfl).trans hs.calm)
  | @messageComplete c cl r _ hc hp hr hw =>
    have h0 : Calm w (w.setClient c (some { cl with parser := .idle })) :=
      calm_setClient hc ⟨rfl, rfl, rfl, rfl, rfl, Or.inr ⟨hp, rfl⟩, Or.inl⟩
    have h1 : Calm _ ((w.setClient c (some { cl with parser := .idle })).log
        (.completeRequest r c cl.reqNo)) := calm_log rfl
    exact .calm ((h0.trans h1).trans
      (hw.calm fun _ => ⟨⟨rfl, rfl, id, fun h => ⟨h, rfl⟩⟩, rfl⟩))
  | clientGone hd => exact .calm hd.calm
  | writable hc hm hd => exact .calm hd.calm
  | timerConnected hr ht hs h1 h2 =>
    obtain ⟨hc, hcur, hh, hcalm⟩ := h.launched hr ht h1
    exact .launched hr ht hc hcur hh (hcalm.trans h2.calm)
  | timerFailed hr ht hs hc => exact .calm (calm_timerFailed hr _)
  | tunnelConnected ht => exact .calm (calm_setTunnel _ _)
  | tunnelFailed ht hd =>
    have h0 : Calm w (w.setTunnel .closed w.sSession) := calm_setTunnel _ _
    exact .calm ((h0.trans ((h.calm h0).dropClients (hl.setTunnel _ _) hd)).trans
      (calm_setTunnel _ _))
  | recvHeader ht hs hu hr hdr =>
    -- a relay with a stream has its connect timer behind it
    have hno := h.submitted hs hu hr
    refine .calm (calm_setRelay hr ⟨rfl, rfl, id, fun ht' => ?_⟩ Or.inl)
    exact absurd (hno.symm.trans ht') (by simp)
  | frame ht hs hopen h1 h2 =>
    -- only the end of a response is a turn of its own
    rcases h.reported ht hs hopen h1 with hcalm | ⟨r, rel, hf, hE⟩
    · split_ifs at h2
      · exact .calm (hcalm.trans h2.calm)
      · exact .calm (h2 ▸ hcalm)
    · exact .ended hf hE h2
  | rst ht hs h1 h2 h3 => exact .calm (h1.calm.trans h2.calm)
  | recvData ht hs hopen hd => exact .calm hd.calm
  | protocolError ht hs h1 h2 =>
    split_ifs at h2
    · exact .calm (h1.calm.trans h2.calm)
    · exact .calm (h2 ▸ h1.calm)
  | goaway ht hs hq => exact .calm (calm_setGoaway.trans hs.calm)
  | connectionError ht => exact .calm (calm_of_eq rfl rfl rfl rfl (Calm.refl w).trace)
  | sessionSend ht hs => exact .calm hs.calm

/-! ### The condition -/

/-- A client that is kept when its response ends, and so leaves the relay `cur`, satisfies `G`. -/
def leaves (G : Frame → Client → Relay → Bool) (w : World) : Event → Bool
  | .recvFrame s frame => w.tunnel ≠ .connected || (w.streams s).all fun st =>
    st.shutRd || st.closing || (st.userData.bind w.relays).all fun rel =>
      !rel.isAttached || !frame.completes || (w.clients rel.args).all fun cl =>
        (cl.relay.bind w.relays).all fun cur =>
          !keepsClient cur.responseHeader || G frame cl cur
  | _ => true

/-- No client leaves its relay while the header block of its pending request is being parsed. -/
def HeadersWhole : World → Event → Bool :=
  leaves fun _ cl _ => cl.parser ≠ .head || cl.pendingRequestHeader.isNone

theorem leaves_mono {G G' : Frame → Client → Relay → Bool} {e : Event}
    (h : leaves G w e = true) (hG : ∀ frame cl cur, G frame cl cur = true →
      G' frame cl cur = true) : leaves G' w e = true := by
  cases e with
  | recvFrame s frame =>
    simp only [leaves, Bool.or_eq_true, Option.all_eq_true] at h ⊢
    refine h.imp_right fun h st hst => (h st hst).imp_right fun h rel hrel => ?_
    refine (h rel hrel).imp_right fun h cl hcl cur hcur => ?_
    exact (h cl hcl cur hcur).imp_right (hG frame cl cur)
  | _ => rfl

/-- What the condition says of a frame that makes the client leave its relay. -/
theorem EndFrame.leaves {G : Frame → Client → Relay → Bool} {s : StreamId} {st : Stream}
    {frame : Frame} {rel cur : Relay} {cl : Client} {r1 : RelayId}
    (hf : EndFrame w s frame st r rel) (hg : leaves G w (.recvFrame s frame) = true)
    (hc : w.clients rel.args = some cl) (hcr : cl.relay = some r1) (hcur : w.relays r1 = some cur)
    (hk : keepsClient cur.responseHeader = true) : G frame cl cur = true := by
  obtain ⟨ht, hs, hopen, hu, hr, ha, hcomp⟩ := hf
  rw [Bool.or_eq_false_iff] at hopen
  simpa [H2ClientProxy.leaves, ht, hs, hopen, hu, hr, ha, hcomp, hc, hcr, hcur, hk] using hg

/-! ### Every turn keeps the invariant -/

/-- A client changes; relays that wait for it must be its current one. -/
theorem Timely.setClient {cl' : Client} (h : Timely w)
    (hhead : cl'.parser = .head → cl'.pendingRequestHeader.map Header.id = none →
      cl'.relay = none)
    (hpend : cl'.pendingRequestHeader.map Header.id ≠ none → cl'.relay ≠ none)
    (hcur : ∀ r rel, w.relays r = some rel → rel.tmrConnectd = true → rel.args = c →
      cl'.relay = some r) : Timely (w.setClient c (some cl')) := by
  have hof : ∀ {P : ClientId → Client → Prop}, P c cl' →
      (∀ c1 cl1, w.clients c1 = some cl1 → P c1 cl1) →
      ∀ c1 cl1, (w.setClient c (some cl')).clients c1 = some cl1 → P c1 cl1 := by
    intro P h1 h2 c1 cl1 hc1
    rw [World.setClient_clients, Function.update_apply] at hc1
    split_ifs at hc1 with he
    · rw [← Option.some.inj hc1, he]
      exact h1
    · exact h2 c1 cl1 hc1
  constructor
  · exact hof (P := fun _ cl1 => _ → _ → cl1.relay = none) hhead h.head
  · exact hof (P := fun _ cl1 => _ → cl1.relay ≠ none) hpend h.pending
  · -- `current`
    intro r rel cl1 hr ht hc1
    rw [World.setClient_clients, Function.update_apply] at hc1
    split_ifs at hc1 with he
    · rw [← Option.some.inj hc1]
      exact hcur r rel hr ht he
    · exact h.current r rel cl1 hr ht hc1
  · exact h.unsent
  · exact h.args_lt

/-- A client gets a new relay, and no other relay waits for it. -/
theorem Timely.createRelay {cl cl' : Client} {o : Obs} (h : Timely w) (hl : Linked w) (b : Bool)
    (hc : w.clients c = some cl) (hr : cl'.relay = some w.nextRelay) (hp : cl'.parser ≠ .head)
    (hno : ∀ r rel, w.relays r = some rel → rel.tmrConnectd = true → rel.args ≠ c) :
    Timely (((w.addRelay { session := b, args := c }).log o).setClient c (some cl')) := by
  have hrel : ∀ r rel, (w.addRelay { session := b, args := c }).relays r = some rel →
      (r = w.nextRelay ∧ rel = { session := b, args := c }) ∨ w.relays r = some rel := by
    intro r rel hr
    rw [World.addRelay_relays, Function.update_apply] at hr
    split_ifs at hr with he
    · exact Or.inl ⟨he, (Option.some.inj hr).symm⟩
    · exact Or.inr hr
  constructor
  · -- `head`
    intro c1 cl1 hc1 hp1 hn1
    rw [World.setClient_clients, Function.update_apply] at hc1
    split_ifs at hc1
    · rw [← Option.some.inj hc1] at hp1
      exact absurd hp1 hp
    · exact h.head c1 cl1 hc1 hp1 hn1
  · -- `pending`
    intro c1 cl1 hc1 hn1
    rw [World.setClient_clients, Function.update_apply] at hc1
    split_ifs at hc1
    · rw [← Option.some.inj hc1, hr]
      simp
    · exact h.pending c1 cl1 hc1 hn1
  · -- `current`
    intro r1 rel1 cl1 hr1 ht1 hc1
    rw [World.setClient_clients, Function.update_apply] at hc1
    rcases hrel r1 rel1 hr1 with ⟨rfl, rfl⟩ | hr0
    · rw [if_pos rfl] at hc1
      rw [← Option.some.inj hc1]
      exact hr
    · rw [if_neg (hno r1 rel1 hr0 ht1)] at hc1
      exact h.current r1 rel1 cl1 hr0 ht1 hc1
  · -- `unsent`
    intro r1 rel1 hr1 ht1
    rcases hrel r1 rel1 hr1 with ⟨rfl, rfl⟩ | hr0
    · refine ⟨(by decide : keepsClient {} = false), fun s st hs hu => ?_⟩
      -- an identity that is new is in no stream
      exact absurd ((hl.stream_lt s st hs).2.2 _ hu) (lt_irrefl _)
    · exact h.unsent r1 rel1 hr0 ht1
  · -- `args_lt`
    intro r1 rel1 hr1
    rcases hrel r1 rel1 hr1 with ⟨rfl, rfl⟩ | hr0
    · exact hl.client_lt c cl hc
    · exact h.args_lt r1 rel1 hr0

/-- The client leaves a relay that no longer waits. -/
theorem Timely.next {cl : Client} (h : Timely w) (hl : Linked w) (hn : Next c w w')
    (hc : w.clients c = some cl) (hcr : cl.relay = some r)
    (hno : ∀ rel, w.relays r = some rel → rel.tmrConnectd = false)
    (hp : cl.pendingRequestHeader ≠ none → cl.parser ≠ .head) : Timely w' := by
  have hnone : ∀ r' rel, w.relays r' = some rel → rel.tmrConnectd = true → rel.args ≠ c := by
    rintro r' rel hr' ht rfl
    have hcur : cl.relay = some r' := h.current r' rel cl hr' ht hc
    rw [hcr, Option.some.injEq] at hcur
    subst hcur
    rw [hno rel hr'] at ht
    exact absurd ht (by simp)
  cases hn with
  | @idle cl1 hc1 hpend =>
    rw [hc, Option.some.injEq] at hc1
    subst hc1
    refine h.setClient (fun _ _ => rfl) ?_ fun r' rel hr' ht he => absurd he (hnone r' rel hr' ht)
    simp [hpend]
  | @next cl1 hd hc1 hpend =>
    rw [hc, Option.some.injEq] at hc1
    subst hc1
    exact h.createRelay hl _ hc rfl (hp (by rw [hpend]; simp)) hnone

/-- After the answer that keeps its client, a relay does not wait. -/
theorem Timely.not_waiting {cur : Relay} (h : Timely w) (hk : Calm w w')
    (hcur : w.relays r = some cur) (hkeep : keepsClient cur.responseHeader = true) :
    ∀ rel, w'.relays r = some rel → rel.tmrConnectd = false := by
  intro rel hr
  obtain ⟨rel0, hr0, hk0⟩ := hk.relays r rel hr
  rw [hcur, Option.some.injEq] at hr0
  subst hr0
  rw [← Bool.not_eq_true]
  intro ht
  exact absurd ((h.of_keepsClient hcur hkeep).symm.trans (hk0.tmrConnectd ht).1) (by simp)

/-- A client whose pending header block is complete keeps it so. -/
theorem CtlKept.whole {cl cl' : Client} (hk : CtlKept cl cl')
    (hg : (cl.parser ≠ .head || cl.pendingRequestHeader.isNone) = true) :
    cl'.pendingRequestHeader ≠ none → cl'.parser ≠ .head := by
  intro hpend hhead
  have hpend0 : cl.pendingRequestHeader.isNone = false := by
    have hmap := hk.pendingRequestHeader
    cases hp0 : cl.pendingRequestHeader with
    | some hd => rfl
    | none =>
      rw [hp0, Option.map_none, Option.map_eq_none_iff] at hmap
      exact absurd hmap hpend
  rw [hpend0, Bool.or_false, decide_eq_true_eq] at hg
  exact hg (hk.parser.symm.trans hhead)

/-- The end of a response. -/
theorem Timely.finished {cl : Client} {cur : Relay} {frame : Frame} (h : Timely w) (hl : Linked w)
    (hE : Finished frame c cl cur w w') (hcr : cl.relay = some r) (hcur : w.relays r = some cur)
    (hg : keepsClient cur.responseHeader = true →
      (cl.parser ≠ .head || cl.pendingRequestHeader.isNone) = true) : Timely w' := by
  cases hE with
  | dropped hk hcalm hnone => exact h.calm hcalm
  | left hk hcalm hlink hc1 hn =>
    have hctl := answered_ctl cl w.sends frame cur.responseHeader
    exact (h.calm hcalm).next (hlink hl) hn hc1 (hctl.relay.trans hcr)
      (h.not_waiting hcalm hcur hk) (hctl.whole (hg hk))

theorem Timely.ends {s : StreamId} {st : Stream} {frame : Frame} {rel : Relay} (h : Timely w)
    (hl : Linked w) (hg : HeadersWhole w (.recvFrame s frame) = true)
    (hf : EndFrame w s frame st r rel) (hE : Ends r frame w w') : Timely w' := by
  obtain ⟨cl, r1, cur, hc, hcr, hcur, hend⟩ :=
    hE.finished hf.completes hf.relay (h.submitted hf.stream hf.userData hf.relay)
  exact h.finished hl hend hcr hcur (hf.leaves hg hc hcr hcur)

theorem Linked.ends {frame : Frame} (hl : Linked w) (hE : Ends r frame w w') : Linked w' := by
  obtain ⟨w1, h1, h2⟩ := hE
  have hl1 : Linked w1 := by
    split_ifs at h1
    · exact hl.hdrPhase h1
    · exact h1 ▸ hl
  exact hl1.msgPhase h2

theorem Timely.begun {cl cl' : Client} (h : Timely w) (hc : w.clients c = some cl)
    (hb : Begun cl cl') : Timely (w.setClient c (some cl')) := by
  have hcur : ∀ r rel, w.relays r = some rel → rel.tmrConnectd = true → rel.args = c →
      cl.relay = some r := by
    rintro r rel hr ht rfl
    exact h.current r rel cl hr ht hc
  cases hb with
  | pending hr hh => exact h.setClient (by simp) (fun _ => Option.isSome_iff_ne_none.mp hr) hcur
  | current hr hh => exact h.setClient (fun _ _ => hr) (h.pending c cl hc) hcur

theorem Timely.headersDone {cl : Client} (h : Timely w) (hl : Linked w)
    (hc : w.clients c = some cl) (hp : cl.parser = .head) (hd : HeadersDone c cl w w') :
    Timely w' := by
  cases hd with
  | @pending hd hd' hh hid hpend =>
    have hl : Timely (w.log (.headersComplete c hd'.id)) := { h with }
    have hk : CtlKept cl (setReqHeader cl hd') := setReqHeader_ctl hh hid
    refine hl.setClient (by simp [completed]) ?_ ?_
    · show (setReqHeader cl hd').pendingRequestHeader.map Header.id ≠ none →
        (setReqHeader cl hd').relay ≠ none
      rw [hk.pendingRequestHeader, hk.relay]
      exact h.pending c cl hc
    · rintro r rel hr ht rfl
      exact hk.relay.trans (h.current r rel cl hr ht hc)
  | @create hd hd' hh hid hpend =>
    have hnone : cl.relay = none := h.head c cl hc hp (by rw [hpend]; rfl)
    have hl' : Timely (w.log (.headersComplete c hd'.id)) := { h with }
    refine hl'.createRelay (hl.log _) _ hc rfl (by simp [completed]) ?_
    -- a client in its first header block has no relay
    rintro r rel hr ht rfl
    have hcur : cl.relay = some r := h.current r rel cl hr ht hc
    exact absurd (hnone.symm.trans hcur) (by simp)

/-- The relay whose timer fired no longer waits, and its stream names it. -/
theorem Timely.of_launched {rel : Relay} {cl : Client} {hd : Header} (h : Timely w)
    (hr : w.relays r = some rel) (hc : w.clients rel.args = some cl) :
    Timely (H2ClientProxy.launched w r rel cl hd) := by
  have hcl : ∀ c1 cl1, (H2ClientProxy.launched w r rel cl hd).clients c1 = some cl1 →
      ∃ cl0, w.clients c1 = some cl0 ∧ cl1.relay = cl0.relay ∧ cl1.parser = cl0.parser ∧
        cl1.pendingRequestHeader = cl0.pendingRequestHeader := by
    intro c1 cl1 hc1
    rw [launched_clients, Function.update_apply] at hc1
    split_ifs at hc1 with he
    · rw [← Option.some.inj hc1]
      exact ⟨cl, he ▸ hc, rfl, rfl, rfl⟩
    · exact ⟨cl1, hc1, rfl, rfl, rfl⟩
  have hrel : ∀ r1 rel1, (H2ClientProxy.launched w r rel cl hd).relays r1 = some rel1 →
      ∃ rel0, w.relays r1 = some rel0 ∧ rel1.args = rel0.args ∧
        (rel1.tmrConnectd = true → r1 ≠ r ∧ rel1 = rel0) := by
    intro r1 rel1 hr1
    rw [launched_relays, Function.update_apply] at hr1
    split_ifs at hr1 with he
    · rw [← Option.some.inj hr1]
      exact ⟨rel, he ▸ hr, rfl, fun ht => absurd ht (by simp)⟩
    · exact ⟨rel1, hr1, rfl, fun _ => ⟨he, rfl⟩⟩
  constructor
  · -- `head`
    intro c1 cl1 hc1 hp1 hn1
    obtain ⟨cl0, hc0, hrel0, hp0, hpend0⟩ := hcl c1 cl1 hc1
    rw [hrel0]
    exact h.head c1 cl0 hc0 (hp0 ▸ hp1) (hpend0 ▸ hn1)
  · -- `pending`
    intro c1 cl1 hc1 hn1
    obtain ⟨cl0, hc0, hrel0, hp0, hpend0⟩ := hcl c1 cl1 hc1
    rw [hrel0]
    exact h.pending c1 cl0 hc0 (hpend0 ▸ hn1)
  · -- `current`
    intro r1 rel1 cl1 hr1 ht1 hc1
    obtain ⟨rel0, hr0, hargs, hw⟩ := hrel r1 rel1 hr1
    obtain ⟨cl0, hc0, hrel0, _⟩ := hcl _ cl1 hc1
    obtain ⟨_, rfl⟩ := hw ht1
    rw [hrel0]
    exact h.current r1 rel1 cl0 hr0 ht1 hc0
  · -- `unsent`
    intro r1 rel1 hr1 ht1
    obtain ⟨rel0, hr0, hargs, hw⟩ := hrel r1 rel1 hr1
    obtain ⟨hne, rfl⟩ := hw ht1
    obtain ⟨h1, h2⟩ := h.unsent r1 rel1 hr0 ht1
    refine ⟨h1, fun s st hs hu => ?_⟩
    rw [launched_streams, Function.update_apply] at hs
    split_ifs at hs
    · -- the new stream names the relay that was submitted
      rw [← Option.some.inj hs] at hu
      exact hne (Option.some.inj hu).symm
    · exact h2 s st hs hu
  · -- `args_lt`
    intro r1 rel1 hr1
    obtain ⟨rel0, hr0, hargs, _⟩ := hrel r1 rel1 hr1
    rw [hargs, launched_nextClient]
    exact h.args_lt r1 rel0 hr0

theorem Timely.accept (h : Timely w) {cl : Client} (hr : cl.relay = none)
    (hn : cl.pendingRequestHeader = none) : Timely (w.addClient cl) := by
  obtain ⟨h1, h2, h3, h4, h5⟩ := h
  constructor
  · -- `head`
    intro c1 cl1 hc1 hp1 hn1
    rw [World.addClient_clients, Function.update_apply] at hc1
    split_ifs at hc1
    · rw [← Option.some.inj hc1]
      exact hr
    · exact h1 c1 cl1 hc1 hp1 hn1
  · -- `pending`
    intro c1 cl1 hc1 hn1
    rw [World.addClient_clients, Function.update_apply] at hc1
    split_ifs at hc1
    · rw [← Option.some.inj hc1, hn] at hn1
      exact absurd rfl hn1
    · exact h2 c1 cl1 hc1 hn1
  · -- `current`
    intro r1 rel1 cl1 hr1 ht1 hc1
    -- a relay belongs to a client that came before
    rw [World.addClient_clients, Function.update_of_ne (h5 r1 rel1 hr1).ne] at hc1
    exact h3 r1 rel1 cl1 hr1 ht1 hc1
  · exact h4
  · exact fun r1 rel1 hr1 => Nat.lt_succ_of_lt (h5 r1 rel1 hr1)

/-- **Every turn that meets the condition keeps the invariant.** -/
theorem Timely.of_turn {e : Event} (h : Timely w) (hl : Linked w)
    (hg : HeadersWhole w e = true) (ht : Turn w e w') : Timely w' := by
  cases ht with
  | calm hk => exact h.calm hk
  | accept => exact h.accept rfl rfl
  | msgBegin hc hp hb => exact h.begun hc hb
  | headersComplete hc hp hd => exact h.headersDone hl hc hp hd
  | launched hr htmr hc hcur hh hk => exact (h.of_launched hr hc).calm hk
  | ended hf hE h2 =>
    split_ifs at h2
    · exact (h.ends hl hg hf hE).calm h2.calm
    · exact h2 ▸ h.ends hl hg hf hE

theorem Timely.prepared (h : Timely w) (i : Input) : Timely (prepared w i) := { h with }

end H2ClientProxy
