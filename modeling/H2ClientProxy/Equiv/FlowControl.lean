import H2ClientProxy.Equiv.WriteStream

/-!
# Flow control between the tunnel and a client

A relay is suspended while much is queued for its client: it then acknowledges nothing of what it
receives, and the peer stops when the window of the stream is used up.

* `Counted`: `pending_write` is what an `int` holds of the number of queued bytes.
* `Paced`: a client's relay is suspended only while at least 30000 bytes are queued, and as long as
  it is not suspended at most 30000 bytes of its stream are unacknowledged.
* `wp_run_flowControl`: both hold in every state that is reached, so no download stops for ever.
* `not_flowControl`: from `2 ^ 31` queued bytes on, `pending_write` is not their number.
-/

namespace H2ClientProxy

open Wp Machine SendQueue Wrap32

variable {D : StreamId → Prop} {w w' w'' : World}

/-! ### Counting the queue -/

/-- The bytes in `list_response_write_buffer` still to be sent: the sum of `len_total - len_sent`. -/
def queued (cl : Client) : ℕ :=
  (cl.listResponseWriteBuffer.map fun b => b.data.length - b.sent).sum

/-- The unsent bytes of a queue, counted buffer by buffer. -/
theorem length_unsent (q : List (Buf UInt8)) :
    (unsent q).length = (q.map fun b => b.data.length - b.sent).sum := by
  induction q with
  | nil => rfl
  | cons b q ih => rw [unsent_cons, List.length_append, ih, List.map_cons, List.sum_cons, Buf.rest,
      List.length_drop]

theorem queued_eq (cl : Client) : queued cl = (unsent cl.listResponseWriteBuffer).length :=
  (length_unsent _).symm

theorem queued_congr {cl cl' : Client}
    (h : cl'.listResponseWriteBuffer = cl.listResponseWriteBuffer) : queued cl' = queued cl := by
  rw [queued, h, queued]

/-- `pending_write` is what is queued, up to the wrap of an `int`. -/
def Counted (cl : Client) : Prop := cl.pendingWrite = wrap32 (queued cl)

/-- What is queued is at least what `pending_write` says. -/
theorem Counted.le {cl : Client} (h : Counted cl) : cl.pendingWrite ≤ queued cl := by
  rw [h]
  exact wrap32_le _

theorem counted_append {cl cl' : Client} (h : Counted cl) {data : Bytes}
    (hp : cl'.pendingWrite = wrap32 (cl.pendingWrite + data.length))
    (hq : cl'.listResponseWriteBuffer = cl.listResponseWriteBuffer ++ [Buf.fresh data]) :
    Counted cl' := by
  rw [Counted, hp, h, wrap32_wrap32_add, queued_eq, queued_eq, hq, unsent_append_fresh,
    List.length_append, Nat.cast_add]

/-- Whatever `send()` answers, a byte is either accepted or still queued. -/
theorem drain_length (q : List (Buf UInt8)) (sends : List SendResult) :
    (drain q sends).accepted.length + (unsent (drain q sends).queue).length =
      (unsent q).length := by
  induction q generalizing sends with
  | nil => rfl
  | cons pos n ih =>
    unfold drain
    cases hsend : send sends pos.rest.length with
    | mk res sends' =>
      have hn := ih sends'
      cases res with
      | error e =>
        dsimp only
        split_ifs
        · simp only [List.length_nil, Nat.zero_add]
        · -- after `EINPROGRESS` the buffer stays as it is
          simp only [unsent_cons, List.length_append]
          omega
      | ok lenWrite =>
        dsimp only
        split_ifs with hlt
        · -- a short write ends the loop
          have hsplit := congrArg List.length (pos.take_append_rest_advance lenWrite (le_of_lt hlt))
          rw [List.length_append] at hsplit
          simp only [unsent_cons, List.length_append]
          omega
        · simp only [unsent_cons, List.length_append]
          omega

theorem counted_write {cl : Client} (sends : List SendResult) (data : Bytes) (h : Counted cl) :
    Counted (writeClient cl sends data).client := by
  unfold writeClient
  dsimp only
  split_ifs with hq
  · split
    · split_ifs
      · exact counted_append h rfl rfl
      · exact h
    · split_ifs
      · exact h
      · exact counted_append h rfl rfl
  · exact counted_append h rfl rfl

theorem Writes.counted {p p' : Client × List SendResult} (hw : Writes p p') (h : Counted p.1) :
    Counted p'.1 := by
  induction hw with
  | refl => exact h
  | tail _ hw ih =>
    obtain ⟨data, rfl⟩ := hw
    exact counted_write _ data ih

theorem counted_rule : ClientRule (fun _ => True) Counted where
  fresh := rfl
  send_side := by
    intro cl cl' h hk
    rw [Counted, hk.pendingWrite, queued_congr hk.queue]
    exact h
  write := fun {_ sends} data _ h => ⟨counted_write sends data h, trivial⟩

theorem counted_afterDrain {cl : Client} (sends : List SendResult) (h : Counted cl) :
    Counted (afterDrain cl (drain cl.listResponseWriteBuffer sends)) := by
  have hlen := drain_length cl.listResponseWriteBuffer sends
  have hclient : Counted (drainedClient cl (drain cl.listResponseWriteBuffer sends)) := by
    have hleft : ((unsent (drain cl.listResponseWriteBuffer sends).queue).length : ℤ) =
        (unsent cl.listResponseWriteBuffer).length -
          (drain cl.listResponseWriteBuffer sends).accepted.length := by
      omega
    rw [Counted, queued_eq]
    show wrap32 (cl.pendingWrite - _) = wrap32 (unsent (drain cl.listResponseWriteBuffer sends).queue).length
    rw [h, wrap32_wrap32_sub, queued_eq, hleft]
  unfold afterDrain
  split_ifs
  · exact hclient
  · exact hclient

theorem queued_le_append {cl cl' : Client} {data : Bytes}
    (hq : cl'.listResponseWriteBuffer = cl.listResponseWriteBuffer ++ [Buf.fresh data]) :
    queued cl ≤ queued cl' := by
  rw [queued_eq, queued_eq, hq, unsent_append_fresh, List.length_append]
  exact Nat.le_add_right _ _

/-- Writing to a client never shortens its queue. -/
theorem writeClient_queued (cl : Client) (sends : List SendResult) (data : Bytes) :
    queued cl ≤ queued (writeClient cl sends data).client := by
  unfold writeClient
  dsimp only
  split_ifs
  · split
    · split_ifs
      · exact queued_le_append rfl
      · exact le_refl _
    · split_ifs
      · exact le_refl _
      · exact queued_le_append rfl
  · exact queued_le_append rfl

theorem Writes.queued_le {p p' : Client × List SendResult} (h : Writes p p') :
    queued p.1 ≤ queued p'.1 := by
  induction h with
  | refl => exact le_refl _
  | tail _ h ih =>
    obtain ⟨data, rfl⟩ := h
    exact le_trans ih (writeClient_queued _ _ data)

/-! ### Changes that cannot hurt -/

/-- No more is received than was, and no relay has been suspended or resumed. -/
structure Milder (w w' : World) : Prop where
  relays : ∀ r rel', w'.relays r = some rel' → ∃ rel, w.relays r = some rel ∧
    rel'.streamId = rel.streamId ∧ rel'.isResponseReadSuspend = rel.isResponseReadSuspend
  streams : ∀ s st', w'.streams s = some st' → ∃ st, w.streams s = some st ∧
    st'.recvLen ≤ st.recvLen

theorem Milder.of_eq (hr : w'.relays = w.relays) (hs : w'.streams = w.streams) : Milder w w' where
  relays := by
    rw [hr]
    exact fun r rel h => ⟨rel, h, rfl, rfl⟩
  streams := by
    rw [hs]
    exact fun s st h => ⟨st, h, le_refl _⟩

theorem Milder.trans (h : Milder w w') (h' : Milder w' w'') : Milder w w'' where
  relays := by
    intro r rel'' hr
    obtain ⟨rel', hr', hid', hsus'⟩ := h'.relays r rel'' hr
    obtain ⟨rel, hr0, hid, hsus⟩ := h.relays r rel' hr'
    exact ⟨rel, hr0, hid'.trans hid, hsus'.trans hsus⟩
  streams := by
    intro s st'' hs
    obtain ⟨st', hs', hle'⟩ := h'.streams s st'' hs
    obtain ⟨st, hs0, hle⟩ := h.streams s st' hs'
    exact ⟨st, hs0, le_trans hle' hle⟩

theorem Sent.milder (h : Sent D w w') : Milder w w' where
  relays := by
    intro r rel' hr
    obtain ⟨rel, hr0, hid, q, rfl⟩ := h.relays r rel' hr
    exact ⟨rel, hr0, rfl, rfl⟩
  streams := by
    intro s st' hs
    obtain ⟨st, hs0, _, hlen⟩ := h.streams s st' hs
    exact ⟨st, hs0, le_of_eq hlen⟩

theorem milder_setRelay {r : RelayId} {rel rel' : Relay} (hr : w.relays r = some rel)
    (hid : rel'.streamId = rel.streamId)
    (hsus : rel'.isResponseReadSuspend = rel.isResponseReadSuspend) :
    Milder w (w.setRelay r rel') where
  relays := by
    intro r' rel1 hr1
    rw [World.setRelay_relays, Function.update_apply] at hr1
    split_ifs at hr1 with he
    · obtain rfl := Option.some.inj hr1
      exact ⟨rel, he ▸ hr, hid, hsus⟩
    · exact ⟨rel1, hr1, rfl, rfl⟩
  streams := fun _ st h => ⟨st, h, le_refl _⟩

theorem Wrote.milder {r : RelayId} {f : Relay → Relay} (h : Wrote r f w w')
    (hf : ∀ rel, (f rel).streamId = rel.streamId ∧
      (f rel).isResponseReadSuspend = rel.isResponseReadSuspend) : Milder w w' := by
  rcases h with ⟨rel, hr, rfl⟩ | ⟨_, rfl⟩
  · exact milder_setRelay hr (hf rel).1 (hf rel).2
  · exact .of_eq rfl rfl

theorem milder_mapStream (s : StreamId) (f : Stream → Stream)
    (hf : ∀ st, (f st).recvLen ≤ st.recvLen) : Milder w (w.mapStream s f) where
  relays := fun _ rel h => ⟨rel, h, rfl, rfl⟩
  streams := by
    intro s' st' hs'
    obtain ⟨st, hst, rfl⟩ := World.mapStream_eq_some hs'
    refine ⟨st, hst, ?_⟩
    split_ifs
    · exact hf st
    · exact le_refl _

theorem milder_freed (r : RelayId) (rel : Relay) : Milder w (freed w r rel) := by
  have h1 : Milder w (w.mapStream rel.streamId ({ · with userData := none })) :=
    milder_mapStream _ _ fun _ => le_refl _
  refine h1.trans ⟨?_, fun s st h => ⟨st, h, le_refl _⟩⟩
  intro r' rel' hr'
  rw [freed, World.removeRelay_relays, Function.update_apply] at hr'
  split_ifs at hr'
  exact ⟨rel', hr', rfl, rfl⟩

/-- A client that has a relay had it before, and no fewer bytes are queued for it. -/
def Burdened (w w' : World) : Prop :=
  ∀ c cl' r, w'.clients c = some cl' → cl'.relay = some r →
    ∃ cl, w.clients c = some cl ∧ cl.relay = some r ∧ queued cl ≤ queued cl'

theorem Burdened.of_eq (h : w'.clients = w.clients) : Burdened w w' := by
  intro c cl' r hc hr
  rw [h] at hc
  exact ⟨cl', hc, hr, le_refl _⟩

theorem Burdened.trans (h : Burdened w w') (h' : Burdened w' w'') : Burdened w w'' := by
  intro c cl'' r hc hr
  obtain ⟨cl', hc', hr', hle'⟩ := h' c cl'' r hc hr
  obtain ⟨cl, hc0, hr0, hle⟩ := h c cl' r hc' hr'
  exact ⟨cl, hc0, hr0, le_trans hle hle'⟩

theorem burdened_setClient {c : ClientId} {cl cl' : Client} (hc : w.clients c = some cl)
    (hr : ∀ r, cl'.relay = some r → cl.relay = some r) (hp : queued cl ≤ queued cl') :
    Burdened w (w.setClient c (some cl')) := by
  intro c' cl1 r hc1 hr1
  rw [World.setClient_clients, Function.update_apply] at hc1
  split_ifs at hc1 with he
  · obtain rfl := Option.some.inj hc1
    exact ⟨cl, he ▸ hc, hr r hr1, hp⟩
  · exact ⟨cl1, hc1, hr1, le_refl _⟩

theorem burdened_dropClient (c : ClientId) : Burdened w (w.setClient c none) := by
  intro c' cl1 r hc1 hr1
  rw [World.setClient_clients, Function.update_apply] at hc1
  split_ifs at hc1
  exact ⟨cl1, hc1, hr1, le_refl _⟩

theorem Written.burdened {c : ClientId} {cl cl' : Client} (h : Written c cl cl' w w') :
    Burdened w w' := by
  obtain ⟨sends, hc, hw, rfl⟩ := h
  have h1 : Burdened w (w.setSends sends) := .of_eq rfl
  exact h1.trans (burdened_setClient hc (fun r hr => hw.ctl.relay ▸ hr) hw.queued_le)

theorem Written.milder {c : ClientId} {cl cl' : Client} (h : Written c cl cl' w w') :
    Milder w w' := by
  obtain ⟨sends, hc, hw, rfl⟩ := h
  exact .of_eq rfl rfl

/-! ### Pacing -/

/-- A suspended relay has a client with at least 30000 queued bytes; a relay that is not suspended has
at most 30000 bytes of its stream unacknowledged. -/
structure PacedAt (w : World) (len : ℕ) (rel : Relay) : Prop where
  suspended : rel.isResponseReadSuspend = true → 30000 ≤ len
  window : rel.isResponseReadSuspend = false → ∀ st, w.streams rel.streamId = some st →
    st.recvLen ≤ 30000

/-- The relay of every client is paced. -/
def Paced (w : World) : Prop :=
  ∀ c cl r rel, w.clients c = some cl → cl.relay = some r → w.relays r = some rel →
    PacedAt w (queued cl) rel

theorem PacedAt.milder {p p' : ℕ} {rel rel' : Relay} (h : PacedAt w p rel)
    (hm : ∀ st', w'.streams rel.streamId = some st' → ∃ st, w.streams rel.streamId = some st ∧
      st'.recvLen ≤ st.recvLen)
    (hid : rel'.streamId = rel.streamId)
    (hsus : rel'.isResponseReadSuspend = rel.isResponseReadSuspend) (hp : p ≤ p') :
    PacedAt w' p' rel' where
  suspended := fun hs => le_trans (h.suspended (hsus ▸ hs)) hp
  window := by
    intro hs st' hst'
    rw [hid] at hst'
    obtain ⟨st, hst, hle⟩ := hm st' hst'
    exact le_trans hle (h.window (hsus ▸ hs) st hst)

theorem Paced.tame (h : Paced w) (hm : Milder w w') (hb : Burdened w w') : Paced w' := by
  intro c cl' r rel' hc hr hrel
  obtain ⟨cl, hc0, hr0, hp⟩ := hb c cl' r hc hr
  obtain ⟨rel, hrel0, hid, hsus⟩ := hm.relays r rel' hrel
  exact (h c cl r rel hc0 hr0 hrel0).milder (hm.streams _) hid hsus hp

theorem Paced.sent (h : Paced w) (hs : Sent D w w') : Paced w' :=
  h.tame hs.milder (.of_eq hs.clients_eq)

theorem Paced.wrote {r : RelayId} {f : Relay → Relay} (h : Paced w) (hw : Wrote r f w w')
    (hf : ∀ rel, (f rel).streamId = rel.streamId ∧
      (f rel).isResponseReadSuspend = rel.isResponseReadSuspend) : Paced w' :=
  h.tame (hw.milder hf) (.of_eq hw.clients_eq)

theorem Paced.setRelay {r : RelayId} {rel rel' : Relay} (h : Paced w) (hr : w.relays r = some rel)
    (hid : rel'.streamId = rel.streamId)
    (hsus : rel'.isResponseReadSuspend = rel.isResponseReadSuspend) : Paced (w.setRelay r rel') :=
  h.tame (milder_setRelay hr hid hsus) (.of_eq rfl)

theorem Paced.setClient {c : ClientId} {cl cl' : Client} (h : Paced w)
    (hc : w.clients c = some cl) (hr : ∀ r, cl'.relay = some r → cl.relay = some r)
    (hp : queued cl ≤ queued cl') : Paced (w.setClient c (some cl')) :=
  h.tame (.of_eq rfl rfl) (burdened_setClient hc hr hp)

theorem Paced.dropClient (h : Paced w) (c : ClientId) : Paced (w.setClient c none) :=
  h.tame (.of_eq rfl rfl) (burdened_dropClient c)

theorem Paced.freed (h : Paced w) (r : RelayId) (rel : Relay) : Paced (freed w r rel) :=
  h.tame (milder_freed r rel) (.of_eq rfl)

theorem Paced.written {c : ClientId} {cl cl' : Client} (h : Paced w)
    (hw : Written c cl cl' w w') : Paced w' :=
  h.tame hw.milder hw.burdened

/-- Only the clients, the relays and the streams matter. -/
theorem Paced.of_eq (h : Paced w) (hc : w'.clients = w.clients) (hr : w'.relays = w.relays)
    (hs : w'.streams = w.streams) : Paced w' :=
  h.tame (.of_eq hr hs) (.of_eq hc)

theorem Paced.log (h : Paced w) (o : Obs) : Paced (w.log o) := h.of_eq rfl rfl rfl

/-- A new relay has no stream yet. -/
theorem Paced.createRelay {c : ClientId} {cl' : Client} (h : Paced w) (hl : Linked w)
    (hr : cl'.relay = some w.nextRelay) (b : Bool) (o : Obs) :
    Paced (((w.addRelay { session := b, args := c }).log o).setClient c (some cl')) := by
  have hzero : ∀ st, w.streams 0 ≠ some st := by
    intro st hst
    exact absurd (hl.stream_lt 0 st hst).1 (lt_irrefl 0)
  intro c1 cl1 r1 rel1 hc1 hr1 hrel1
  simp only [World.setClient_clients, World.log_clients, World.addRelay_clients,
    World.setClient_relays, World.log_relays, World.addRelay_relays, Function.update_apply]
    at hc1 hrel1
  split_ifs at hrel1 with he
  · obtain rfl := Option.some.inj hrel1
    exact ⟨fun hs => absurd hs (by simp), fun _ st hst => absurd hst (hzero st)⟩
  · split_ifs at hc1 with hcc
    · obtain rfl := Option.some.inj hc1
      rw [hr, Option.some.injEq] at hr1
      exact absurd hr1.symm he
    · have h0 := h c1 cl1 r1 rel1 hc1 hr1 hrel1
      exact ⟨h0.suspended, h0.window⟩

/-- A new stream has received nothing. -/
theorem Paced.submitted {r : RelayId} {rel : Relay} (h : Paced w) (hl : Linked w)
    (hr : w.relays r = some rel) (hd : Header) : Paced (submitted w r rel hd) := by
  intro c cl r1 rel1 hc hr1 hrel1
  rw [submitted_clients] at hc
  rw [submitted_relays, Function.update_apply] at hrel1
  split_ifs at hrel1 with he
  · obtain rfl := Option.some.inj hrel1
    refine ⟨(h c cl r1 rel hc hr1 (he ▸ hr)).suspended, fun _ st hst => ?_⟩
    rw [submitted_streams, Function.update_self] at hst
    obtain rfl := Option.some.inj hst
    exact Nat.zero_le _
  · refine (h c cl r1 rel1 hc hr1 hrel1).milder (fun st' hst' => ?_) rfl rfl (le_refl _)
    rw [submitted_streams, Function.update_apply] at hst'
    split_ifs at hst' with hs
    · exact absurd hs (ne_of_lt (hl.relay_lt r1 rel1 hrel1).2)
    · exact ⟨st', hst', le_refl _⟩

/-- A relay that is resumed is paced afterwards, if it had a current window or was suspended, and the
others if they were. -/
theorem Paced.resumed {r : RelayId}
    (hothers : ∀ c cl r1 rel, w.clients c = some cl → cl.relay = some r1 → w.relays r1 = some rel →
      (r1 ≠ r → PacedAt w (queued cl) rel) ∧
        (rel.isResponseReadSuspend = false → ∀ st, w.streams rel.streamId = some st →
          st.recvLen ≤ 30000))
    (hres : Resumed r w w') : Paced w' := by
  obtain ⟨rel, w1, hrel, h1, h2⟩ := hres
  -- up to the last write no client and no suspension changes, and the window of `r` is small
  obtain ⟨hm, hclients, hwin⟩ : Milder w w1 ∧ w1.clients = w.clients ∧
      (rel.isResponseReadSuspend = true → ∀ st, w1.streams rel.streamId = some st →
        st.recvLen ≤ 30000) := by
    rcases h1 with ⟨rfl, h1⟩ | h1
    · exact ⟨.of_eq rfl rfl, rfl, h1⟩
    · have h0 : Milder w (w.mapStream rel.streamId ({ · with recvLen := 0 })) :=
        milder_mapStream _ _ fun _ => Nat.zero_le _
      refine ⟨h0.trans h1.milder, h1.clients_eq, fun _ st hst => ?_⟩
      obtain ⟨st0, hst0, _, hlen⟩ := h1.streams _ st hst
      obtain ⟨st1, _, rfl⟩ := World.mapStream_eq_some hst0
      rw [if_pos rfl] at hlen
      have : st.recvLen = 0 := hlen
      omega
  intro c cl r1 rel1 hc hr1 hrel1
  rw [h2.clients_eq, hclients] at hc
  rcases h2 with ⟨rel0, hrel0, rfl⟩ | ⟨hnone, rfl⟩
  · obtain ⟨rel', hrel', hid, hsus⟩ := hm.relays r rel0 hrel0
    rw [hrel] at hrel'
    obtain rfl := Option.some.inj hrel'
    rw [World.setRelay_relays, Function.update_apply] at hrel1
    split_ifs at hrel1 with he
    · obtain rfl := Option.some.inj hrel1
      refine ⟨fun hs => absurd hs (by simp), fun _ st hst => ?_⟩
      have hst' : w1.streams rel.streamId = some st := hid ▸ hst
      cases hb : rel.isResponseReadSuspend with
      | true => exact hwin hb st hst'
      | false =>
        obtain ⟨st0, hst0, hle⟩ := hm.streams _ st hst'
        exact le_trans hle ((hothers c cl r1 rel hc hr1 (he ▸ hrel)).2 hb st0 hst0)
    · obtain ⟨rel2, hrel2, hid2, hsus2⟩ := hm.relays r1 rel1 hrel1
      have h0 := (hothers c cl r1 rel2 hc hr1 hrel2).1 he
      exact h0.milder (hm.streams _) hid2 hsus2 (le_refl _)
  · obtain ⟨rel2, hrel2, hid2, hsus2⟩ := hm.relays r1 rel1 hrel1
    have hne : r1 ≠ r := by
      rintro rfl
      rw [World.log_relays, hnone] at hrel1
      exact absurd hrel1 (by simp)
    have h0 := (hothers c cl r1 rel2 hc hr1 hrel2).1 hne
    exact h0.milder (hm.streams _) hid2 hsus2 (le_refl _)

theorem Dropped.milder {c : ClientId} (hd : Dropped c w w') : Milder w w' := by
  obtain ⟨cl, hc, ⟨_, rfl⟩ | ⟨r, rel, w1, w2, _, _, h1, h2, rfl⟩⟩ := hd
  · exact .of_eq rfl rfl
  · have h0 : Milder w (w.log (.close r)) := .of_eq rfl rfl
    have h3 : Milder w2 (w2.setClient c none) := .of_eq rfl rfl
    exact ((h0.trans h1.milder).trans (h2.milder fun _ => ⟨rfl, rfl⟩)).trans h3

/-- What is left of a client that is dropped does not matter. -/
theorem Paced.dropped {c : ClientId} {cl : Option Client} (h : Paced w)
    (hd : Dropped c (w.setClient c cl) w') : Paced w' := by
  have hm : Milder w (w.setClient c cl) := .of_eq rfl rfl
  have hclients : w'.clients = (w.setClient c none).clients := by
    rw [hd.clients_eq, World.setClient_clients, World.setClient_clients, Function.update_idem]
  have hb : Burdened (w.setClient c none) w' := .of_eq hclients
  exact h.tame (hm.trans hd.milder) ((burdened_dropClient c).trans hb)

/-- A writable event: the relay is resumed exactly when the queue has become short. -/
theorem Paced.writable {c : ClientId} (h : Paced w) (hcount : AllClients Counted w)
    (hd : WritableDone c w w') : Paced w' := by
  cases hd with
  | empty hc hq hr hres =>
    refine Paced.resumed (fun c1 cl1 r1 rel1 hc1 hr1 hrel1 => ?_) hres
    have h0 := h c1 cl1 r1 rel1 hc1 hr1 hrel1
    exact ⟨fun _ => h0, h0.window⟩
  | @error cl out hc hq hout herr hdrop =>
    have h0 : Paced (w.setSends out.sends) := h.of_eq rfl rfl rfl
    exact h0.dropped hdrop
  | @full cl out hc hq hout herr hlen hw =>
    rw [hw]
    intro c1 cl1 r1 rel1 hc1 hr1 hrel1
    rw [World.setClient_clients, Function.update_apply] at hc1
    split_ifs at hc1 with he
    · -- more than 30000 bytes are left, so the relay may stay suspended
      obtain rfl := Option.some.inj hc1
      rw [(afterDrain_ctl cl out).relay] at hr1
      have h0 := h c cl r1 rel1 hc hr1 hrel1
      have hle := (counted_afterDrain w.sends (hcount c cl hc)).le
      rw [← hout] at hle
      exact ⟨fun _ => by omega, h0.window⟩
    · have h0 := h c1 cl1 r1 rel1 hc1 hr1 hrel1
      exact ⟨h0.suspended, h0.window⟩
  | @resumed cl out r hc hq hout herr hlen hr hres =>
    refine Paced.resumed (fun c1 cl1 r1 rel1 hc1 hr1 hrel1 => ?_) hres
    rw [World.setClient_clients, Function.update_apply] at hc1
    split_ifs at hc1 with he
    · -- the relay of this client is resumed, whatever it was
      obtain rfl := Option.some.inj hc1
      rw [(afterDrain_ctl cl out).relay, hr, Option.some.injEq] at hr1
      have h0 := h c cl r1 rel1 hc (hr1 ▸ hr) hrel1
      exact ⟨fun hne => absurd hr1.symm hne, h0.window⟩
    · have h0 := h c1 cl1 r1 rel1 hc1 hr1 hrel1
      exact ⟨fun _ => ⟨h0.suspended, h0.window⟩, h0.window⟩

theorem BodyDone.burdened {c : ClientId} (h : BodyDone c w w') : Burdened w w' := by
  obtain ⟨cl, r, rel, cl1, w1, _, _, hw, hend⟩ := h
  rcases hend with ⟨_, rfl⟩ | ⟨_, rfl⟩
  · exact hw.burdened.trans (.of_eq rfl)
  · exact hw.burdened

/-- A chunk suspends no relay but that of its client, and only when more than 30000 bytes are
queued then. -/
theorem BodyDone.relays {c : ClientId} (h : BodyDone c w w') (hl : Linked w)
    (hcount : AllClients Counted w) {r : RelayId} {rel' : Relay} (hr : w'.relays r = some rel') :
    ∃ rel, w.relays r = some rel ∧ rel'.streamId = rel.streamId ∧
      (rel'.isResponseReadSuspend = rel.isResponseReadSuspend ∨
        rel'.isResponseReadSuspend = true ∧ ∀ c' cl', w'.clients c' = some cl' →
          cl'.relay = some r → 30000 < queued cl') := by
  obtain ⟨cl, r0, rel0, cl1, w1, hr0, hrel0, hw, hend⟩ := h
  have hself := hw.clients_self
  obtain ⟨sends, hc, hwr, rfl⟩ := hw
  have hle := (hwr.counted (hcount c cl hc)).le
  rcases hend with ⟨hlen, rfl⟩ | ⟨_, rfl⟩
  · rw [World.setRelay_relays, Function.update_apply] at hr
    split_ifs at hr with he
    · obtain rfl := Option.some.inj hr
      refine ⟨rel0, he ▸ hrel0, rfl, Or.inr ⟨rfl, ?_⟩⟩
      intro c' cl' hc' hr'
      simp only [World.setRelay_clients, World.setClient_clients, World.setSends_clients,
        Function.update_apply] at hc'
      split_ifs at hc' with hcc
      · -- the `int` was greater than 30000, so the sum is, too
        obtain rfl := Option.some.inj hc'
        have hle' : cl1.pendingWrite ≤ queued cl1 := hle
        omega
      · -- no other client has this relay
        have h1 := (hl.current c' cl' r hc' hr').2 rel0 (he ▸ hrel0)
        have h2 := (hl.current c cl r hc (he ▸ hr0)).2 rel0 (he ▸ hrel0)
        exact absurd (h1.1.symm.trans h2.1) hcc
    · exact ⟨rel', hr, rfl, Or.inl rfl⟩
  · exact ⟨rel', hr, rfl, Or.inl rfl⟩

/-- A piece of `DATA`: it is acknowledged unless the relay is suspended, and the relay is suspended
only when more than 30000 bytes are queued. -/
theorem Paced.chunkDone {s : StreamId} {st : Stream} {data : Bytes} (h : Paced w) (hl : Linked w)
    (hcount : AllClients Counted w) (hs : w.streams s = some st) (hd : ChunkDone w s st data w') :
    Paced w' := by
  -- the only current relay that can have received on `s` is the one that is called back
  have hown : ∀ r rel, w.relays r = some rel → rel.streamId = s → st.userData = some r :=
    fun r rel hr hid => hl.own r rel st hr (hid ▸ hs)
  cases hd with
  | ignored hign =>
    intro c cl r rel hc hr hrel
    have hat := ((hl.current c cl r hc hr).2 rel hrel).2
    have hne : rel.streamId ≠ s := by
      intro hid
      obtain ⟨rel', hrel', hdet⟩ := hign r (hown r rel hrel hid)
      have hrel0 : w.relays r = some rel := hrel
      rw [hrel0, Option.some.injEq] at hrel'
      rw [← hrel', hat] at hdet
      exact absurd hdet (by simp)
    refine (h c cl r rel hc hr hrel).milder (fun st' hst' => ?_) rfl rfl (le_refl _)
    obtain ⟨st0, hst0, rfl⟩ := World.mapStream_eq_some hst'
    exact ⟨st0, hst0, by rw [if_neg hne]⟩
  | @written r rel rel1 w1 w2 _ hu hr ha h1 hr1 h2 h3 =>
    refine Paced.sent ?_ h3
    have hl0 : Linked (chunked w s r rel data) := hl.chunked hr s data
    have hrelays : w2.relays = w1.relays := by
      split_ifs at h2 <;> simp only [h2, World.mapStream_relays]
    have hclients : w2.clients = w1.clients := by
      split_ifs at h2 <;> simp only [h2, World.mapStream_clients]
    intro c cl r2 rel2 hc hr2 hrel2
    rw [hclients] at hc
    rw [hrelays] at hrel2
    obtain ⟨cl0, hc0, hr0, hp⟩ := h1.burdened c cl r2 hc hr2
    obtain ⟨relc, hrelc, hid, hsus⟩ := h1.relays hl0 (hcount.of_clients rfl) hrel2
    obtain ⟨rel0, hrel0, hid0, hsus0⟩ : ∃ rel0, w.relays r2 = some rel0 ∧
        relc.streamId = rel0.streamId ∧
        relc.isResponseReadSuspend = rel0.isResponseReadSuspend := by
      rw [chunked, World.log_relays, World.setRelay_relays, Function.update_apply] at hrelc
      split_ifs at hrelc with he
      · obtain rfl := Option.some.inj hrelc
        exact ⟨rel, he ▸ hr, rfl, rfl⟩
      · exact ⟨relc, hrelc, rfl, rfl⟩
    have h0 := h c cl0 r2 rel0 hc0 hr0 hrel0
    refine ⟨fun hb => ?_, fun hb st2 hst2 => ?_⟩
    · rcases hsus with hsus | ⟨_, hlong⟩
      · exact le_trans (h0.suspended (by rw [← hsus0, ← hsus]; exact hb)) hp
      · exact le_of_lt (hlong c cl hc hr2)
    · by_cases hids : rel2.streamId = s
      · -- the relay that was called back
        have hsame : r2 = r := by
          have := hown r2 rel0 hrel0 (by rw [← hid0, ← hid]; exact hids)
          rw [hu, Option.some.injEq] at this
          exact this.symm
        rw [hsame, hr1, Option.some.injEq] at hrel2
        rw [hids] at hst2
        split_ifs at h2 with hack
        · rw [h2] at hst2
          obtain ⟨st3, _, rfl⟩ := World.mapStream_eq_some hst2
          rw [if_pos rfl]
          exact Nat.zero_le _
        · rw [h2, h1.streams] at hst2
          obtain ⟨st3, hst3, rfl⟩ := World.mapStream_eq_some hst2
          rw [hs, Option.some.injEq] at hst3
          rw [if_pos rfl, ← hst3]
          have hfalse : rel1.isResponseReadSuspend = false := by rw [hrel2]; exact hb
          exact not_lt.mp fun hlt => hack ⟨hfalse, hlt⟩
      · have hst0 : w.streams rel0.streamId = some st2 := by
          have hold : ∀ f : Stream → Stream, Function.update w.streams s ((w.streams s).map f)
              rel2.streamId = w.streams rel2.streamId := fun f => Function.update_of_ne hids _ _
          rw [← hid0, ← hid]
          split_ifs at h2 with hack
          · rw [h2, World.mapStream_streams, Function.update_of_ne hids, h1.streams] at hst2
            exact (hold _).symm.trans hst2
          · rw [h2, h1.streams] at hst2
            exact (hold _).symm.trans hst2
        refine h0.window ?_ st2 hst0
        rcases hsus with hsus | ⟨htrue, _⟩
        · rw [← hsus0, ← hsus]
          exact hb
        · rw [htrue] at hb
          exact absurd hb (by simp)

/-! ### Every event -/

theorem Paced.msgDone {c : ClientId} (h : Paced w) (hl : Linked w) (hm : MsgDone c w w') :
    Paced w' := by
  obtain ⟨cl, r, rel, w1, hc, hr, hrel, hw1, hend⟩ := hm
  obtain ⟨h1, hl1⟩ : Paced w1 ∧ Linked w1 := by
    rcases hw1 with ⟨_, rfl⟩ | ⟨_, rfl⟩
    · exact ⟨h, hl⟩
    · have hw := written_wroteTo hc lastChunk
      exact ⟨h.written hw, hl.quiet (D := fun _ => False) hw.quiet⟩
  rcases hend with ⟨_, rfl⟩ | ⟨_, hn⟩
  · exact h.dropClient c
  · cases hn with
    | idle hc1 hp => exact h1.setClient hc1 (fun r hr => absurd hr (by simp)) (le_refl _)
    | next hc1 hp => exact h1.createRelay hl1 rfl _ _

theorem Paced.reported {userData : Option RelayId} {frame : Frame} (h : Paced w) (hl : Linked w)
    (hr : Reported w userData frame w') : Paced w' := by
  cases hr with
  | ignored => exact h
  | @phases r rel w1 _ hu hr ha h1 h2 =>
    obtain ⟨hp1, hl1⟩ : Paced w1 ∧ Linked w1 := by
      split_ifs at h1
      · refine ⟨?_, hl.hdrPhase h1⟩
        obtain ⟨rel, rel1, cl, r1, data, hr, hk, hc, _, _, _, rfl⟩ := h1
        have hsus : rel1.isResponseReadSuspend = rel.isResponseReadSuspend := by
          rcases hk with rfl | ⟨_, rfl⟩
          · rfl
          · unfold relayCheckLengthInfo
            dsimp only
            split_ifs <;> rfl
        have h0 : Paced (heading w r rel1) := by
          apply Paced.log
          exact Paced.setRelay h hr hk.kept.2 hsus
        exact h0.written (written_wroteTo (w := heading w r rel1) hc data)
      · exact h1 ▸ ⟨h, hl⟩
    split_ifs at h2
    · obtain ⟨rel1, hr1, hd⟩ := h2
      have h0 : Paced (ending w1 r rel1) := by
        apply Paced.log
        exact Paced.setRelay hp1 hr1 rfl rfl
      exact h0.msgDone (hl1.ending hr1) hd
    · exact h2 ▸ hp1

theorem Paced.shutRd {s : StreamId} (h : Paced w) (hs : ShutRd s w w') : Paced w' := by
  have h1 : Paced (w.mapStream s ({ · with shutRd := true })) :=
    h.tame (milder_mapStream _ _ fun _ => le_refl _) (.of_eq rfl)
  exact h1.sent hs

theorem Paced.dropClients {rs : List RelayId} (h : Paced w) (hd : DropClients rs w w') :
    Paced w' := by
  induction hd with
  | nil => exact h
  | cons h1 _ ih =>
    refine ih ?_
    cases h1 with
    | attached hr ha hc => exact ((h.log _).dropClient _).freed _ _
    | detached hr ha => exact h.freed _ _

theorem Paced.bodiesWritten {c : ClientId} {r : RelayId} {bs : List BodyBuffer} (h : Paced w)
    (hb : BodiesWritten c r bs w w') : Paced w' := by
  induction hb with
  | nil => exact h
  | cons h1 _ ih => exact ih (Paced.sent (h.log _) h1)

theorem Paced.timed {r : RelayId} {rel : Relay} (h : Paced w) (hr : w.relays r = some rel)
    (what : RelayWhat) : Paced (timed w r rel what) := by
  apply Paced.log
  exact Paced.setRelay h hr rfl rfl

theorem Paced.submits {c : ClientId} {cl : Client} {r : RelayId} {hd : Header} {rel : Relay}
    (h : Paced w) (hl : Linked w) (hs : Submits c cl r hd rel w w') : Paced w' := by
  obtain ⟨w1, h1, h2⟩ := hs.sent
  have h0 : Paced (connecting w c cl r hd) := by
    apply Paced.log
    exact Paced.setClient h hs.client (fun _ hr => hr) (le_refl _)
  have hp1 : Paced w1 := (h0.submitted (hl.connecting hs.client r hd) hs.relay hd).sent h1
  exact hp1.wrote h2 fun _ => ⟨rfl, rfl⟩

/-- **Every event keeps the relays paced.** -/
theorem Paced.handled {e : Event} (h : Paced w) (hl : Linked w) (hcount : AllClients Counted w)
    (hh : Handled w e w') : Paced w' := by
  cases hh with
  | skip => exact h
  | accept =>
    -- a new client has no relay
    refine h.tame (.of_eq rfl rfl) fun c cl r hc hr => ?_
    rw [World.addClient_clients, Function.update_apply] at hc
    split_ifs at hc
    · obtain rfl := Option.some.inj hc
      exact absurd hr (by simp)
    · exact ⟨cl, hc, hr, le_refl _⟩
  | msgBegin hc hp hb =>
    refine h.setClient hc (fun r hr => ?_) ?_
    · cases hb <;> exact hr
    · cases hb <;> exact le_refl _
  | reqHeader hc hk hs =>
    exact h.setClient hc (fun r hr => hk.relay ▸ hr) (le_of_eq (queued_congr hs.queue).symm)
  | headersComplete hc hp hd =>
    cases hd with
    | pending hh hid hp =>
      have hk := setReqHeader_ctl hh hid
      exact (h.log _).setClient hc (fun r hr => hk.relay ▸ hr)
        (le_of_eq (queued_congr (setReqHeader_send _).queue).symm)
    | create hh hid hp => exact (h.log _).createRelay (hl.log _) rfl _ _
  | bodyQueued hc hp hr hrel hst => exact h.setClient hc (fun _ hr => hr) (le_refl _)
  | bodyWritten hc hp hr hrel hst hs => exact (h.log _).sent hs
  | messageComplete hc hp hr hw =>
    refine Paced.wrote (Paced.log ?_ _) hw fun _ => ⟨rfl, rfl⟩
    exact h.setClient hc (fun _ hr => hr) (le_refl _)
  | @clientGone c _ hd =>
    -- a client less: nobody has more queued than before
    have hb : Burdened (w.setClient c none) w' := .of_eq hd.clients_eq
    exact h.tame hd.milder ((burdened_dropClient c).trans hb)
  | writable hc hm hd => exact h.writable hcount hd
  | timerConnected hr ht hs h1 h2 =>
    exact (Paced.submits (h.timed hr _) (hl.timed hr _) h1).bodiesWritten h2
  | timerFailed hr ht hs hc =>
    exact (h.timed hr _).dropClient _
  | tunnelConnected ht => exact h.of_eq rfl rfl rfl
  | tunnelFailed ht hd =>
    have h0 : Paced (w.setTunnel .closed w.sSession) := h.of_eq rfl rfl rfl
    exact (h0.dropClients hd).of_eq rfl rfl rfl
  | recvHeader ht hs hu hr hdr => exact h.setRelay hr rfl rfl
  | frame ht hs hopen h1 h2 =>
    split_ifs at h2
    · exact (h.reported hl h1).shutRd h2
    · exact h2 ▸ h.reported hl h1
  | rst ht hs h1 h2 h3 =>
    refine Paced.sent ?_ h2
    cases h1 with
    | ignored => exact h
    | dropped hu hr ha hc => exact ((h.log _).dropClient _).freed _ _
  | recvData ht hs hopen hd => exact h.chunkDone hl hcount hs hd
  | protocolError ht hs h1 h2 =>
    split_ifs at h2
    · exact (h.sent h1).shutRd h2
    · exact h2 ▸ h.sent h1
  | goaway ht hs hq =>
    have h0 : Paced w.setGoaway := h.of_eq rfl rfl rfl
    exact h0.sent hs
  | connectionError ht => exact h.of_eq rfl rfl rfl
  | sessionSend ht hs => exact h.sent hs

/-! ### Every run -/

/-- The links, the count and the pace, together. -/
structure Flowing (w : World) : Prop where
  linked : Linked w
  counted : AllClients Counted w
  paced : Paced w

theorem wp_act_flowing (h : Flowing w) (a : Action) :
    wp (act a) (fun _ => Flowing) (fun _ _ => True) w := by
  have hcount : wp (act a) (fun _ => AllClients Counted) (fun _ _ => True) w := by
    refine wp_act counted_rule h.counted a ?_ fun _ _ _ _ => trivial
    rintro i -
    exact ⟨trivial, fun c cl _ _ _ hc => h.counted c cl hc,
      fun c cl _ hc _ _ => counted_afterDrain _ (h.counted c cl hc)⟩
  have hrest : wp (act a) (fun _ w' => Linked w' ∧ Paced w') (fun _ _ => True) w := by
    cases a with
    | input i =>
      have hl : Linked (prepared w i) := h.linked.prepared i
      have hp : Paced (prepared w i) := h.paced.of_eq rfl rfl rfl
      have hc : AllClients Counted (prepared w i) := h.counted.of_clients rfl
      exact step_spec i (fun _ hh => ⟨hl.handled hh, hp.handled hl hc hh⟩) fun _ _ _ => trivial
    | write c data sends =>
      have hl : Linked (w.setSends sends) := { h.linked with }
      have hp : Paced (w.setSends sends) := h.paced.of_eq rfl rfl rfl
      simp only [act, wp_bind, wp_modify]
      refine wp_onClient c _ _ ⟨hl, hp⟩ fun cl hc _ => ?_
      simp only [wp_bind, wp_clientWrite, hc, wp_pure]
      have hw := written_wroteTo (w := w.setSends sends) hc data
      exact ⟨hl.quiet (D := fun _ => False) hw.quiet, hp.written hw⟩
  exact wp_mono (wp_and hcount hrest) (fun _ _ h => ⟨h.2.1, h.1, h.2.2⟩) fun _ _ _ => trivial

theorem wp_run_flowing (as : List Action) :
    wp (run act as) (fun _ => Flowing) (fun _ _ => True) World.init := by
  refine run_wp (G := fun _ _ => True) (fun _ a h _ => wp_act_flowing h a) as World.init ?_
    (meets_true as World.init)
  refine ⟨linked_init, ?_, ?_⟩
  · exact fun c cl hc => absurd hc (by simp [World.init])
  · exact fun c cl r rel hc => absurd hc (by simp [World.init])

/-- **Flow control.**  In every state that is reached and for every client: `pending_write` is the
number of bytes in the queue exactly as long as these are fewer than `2 ^ 31`; if the current relay is
suspended, at least 30000 bytes are queued, so that a writable event will come; if it is not, at most
30000 bytes of its stream are unacknowledged. -/
theorem wp_run_flowControl (as : List Action) :
    wp (run act as)
      (fun _ w => ∀ c cl, w.clients c = some cl →
        (cl.pendingWrite = queued cl ↔ queued cl < 2 ^ 31) ∧
          ∀ r rel, cl.relay = some r → w.relays r = some rel →
            (rel.isResponseReadSuspend = true →
              (queued cl < 2 ^ 31 → 30000 ≤ cl.pendingWrite) ∧ 30000 ≤ queued cl ∧
                cl.listResponseWriteBuffer ≠ []) ∧
            (rel.isResponseReadSuspend = false → ∀ st, w.streams rel.streamId = some st →
              st.recvLen ≤ 30000))
      (fun _ _ => True) World.init := by
  refine wp_mono (wp_run_flowing as) (fun _ w h => ?_) fun _ _ => id
  intro c cl hc
  have hcount : cl.pendingWrite = wrap32 (queued cl) := h.counted c cl hc
  have hiff : cl.pendingWrite = queued cl ↔ queued cl < 2 ^ 31 := by
    rw [hcount]
    exact wrap32_eq_self_iff _
  refine ⟨hiff, fun r rel hr hrel => ?_⟩
  have hp := h.paced c cl r rel hc hr hrel
  refine ⟨fun hs => ⟨fun hlt => ?_, hp.suspended hs, ?_⟩, hp.window⟩
  · -- without an overflow the `int` is the sum
    have hle := hp.suspended hs
    have heq := hiff.2 hlt
    omega
  · intro hq
    have hle := hp.suspended hs
    rw [queued, hq, List.map_nil, List.sum_nil] at hle
    omega

/-- A call of `client_write` for a client that is there. -/
theorem wp_act_write {c : ClientId} (cl : Client) {data : Bytes} {sends : List SendResult}
    {Q : Unit → World → Prop} {E : Fault → World → Prop} (hc : w.clients c = some cl)
    (h : ∀ w', w'.clients c = some (writeClient cl sends data).client → Q () w') :
    wp (act (.write c data sends)) Q E w := by
  have hc' : (w.setSends sends).clients c = some cl := hc
  simp only [act, onClient, wp_bind, wp_modify, wp_get, hc', if_true, wp_clientWrite, wp_pure]
  exact h _ (Function.update_self ..)

/-- Two writes while the socket accepts nothing: both are queued. -/
theorem queued_twice (data : Bytes) (hne : data ≠ []) :
    wp (run act [.input ⟨.accept, [], []⟩, .write 0 data [.accepted 0], .write 0 data []])
      (fun _ w => ∃ cl, w.clients 0 = some cl ∧
        cl.listResponseWriteBuffer = [Buf.fresh data, Buf.fresh data])
      (fun _ _ => False) World.init := by
  have hpos : 0 < data.length := List.length_pos_iff.2 hne
  have hfirst : ∀ cl, cl.listResponseWriteBuffer = [] →
      (writeClient cl [.accepted 0] data).client.listResponseWriteBuffer = [Buf.fresh data] := by
    intro cl hq
    simp [writeClient, send, queueFirst, hq, hpos]
  have hsecond : ∀ cl, cl.listResponseWriteBuffer = [Buf.fresh data] →
      (writeClient cl [] data).client.listResponseWriteBuffer = [Buf.fresh data, Buf.fresh data] := by
    intro cl hq
    simp [writeClient, hq]
  simp only [run, wp_bind, wp_pure]
  refine (wp_of_ok (show act (.input ⟨.accept, [], []⟩) World.init = .ok () _ from rfl)).2 ?_
  refine wp_act_write { file := epFileDetect epFileCreate EP_READ 30000 } rfl fun w1 h1 => ?_
  exact wp_act_write _ h1 fun w2 h2 => ⟨_, h2, hsecond _ (hfirst _ rfl)⟩

/-- Two writes of `2 ^ 30` bytes each are too many for the `int`. -/
theorem not_flowControl : ¬ ∀ as : List Action,
    wp (run act as)
      (fun _ w => ∀ c cl, w.clients c = some cl →
        cl.pendingWrite = queued cl ∧
          ∀ r rel, cl.relay = some r → w.relays r = some rel →
            (rel.isResponseReadSuspend = true →
              30000 ≤ cl.pendingWrite ∧ cl.listResponseWriteBuffer ≠ []) ∧
            (rel.isResponseReadSuspend = false → ∀ st, w.streams rel.streamId = some st →
              st.recvLen ≤ 30000))
      (fun _ _ => True) World.init := by
  intro h
  obtain ⟨data, hlen⟩ : ∃ data : Bytes, data.length = 2 ^ 30 := ⟨_, List.length_replicate (a := 0)⟩
  have hne : data ≠ [] := List.ne_nil_of_length_pos (by omega)
  obtain ⟨-, w, ⟨hall, hflow⟩, cl, hc, hq⟩ := exists_of_wp (wp_mono (wp_and (wp_and (h _)
    (wp_run_flowing _)) (queued_twice data hne)) (fun _ _ => id) fun _ _ hE => hE.2)
  have hcount : cl.pendingWrite = wrap32 (queued cl) := hflow.counted 0 cl hc
  have htwice : queued cl = 2 ^ 31 := by
    rw [queued_eq, hq, unsent_cons, unsent_cons, unsent_nil, List.append_nil, List.length_append,
      Buf.rest_fresh, hlen]
    rfl
  have heq := (hall 0 cl hc).1
  rw [hcount, wrap32_eq_self_iff, htwice] at heq
  exact lt_irrefl _ heq

end H2ClientProxy
