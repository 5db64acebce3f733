import H2ClientProxy.Equiv.FlowControl
import H2ClientProxy.Equiv.WriteStream

/-!
# What is lost when a client is dropped

`client_drop` frees the write queue of a client whatever it holds.  `client_handle_relay_msg_complete`
calls it when the response has neither `Transfer-Encoding` nor `Content-Length`, with no look at the
queue, so a slow client loses the end of such a response; an error of the next request drops the
client in the same way while an earlier response is still queued.

* `NoneLost`: of a client that is there, every byte passed to `client_write` has been accepted by the
  socket or is queued;
* `Release.clean`: nothing was queued when the client was freed, and everything had been accepted;
* `DropsDrained`: the condition; every event that drops a client finds its queue empty;
* `wp_run_releasesOk`: under it every step releases clean queues only, unless the peer has gone.
-/

namespace H2ClientProxy

open Wp Machine SendQueue

variable {D : StreamId → Prop} {w w' : World} {r : RelayId} {c : ClientId}

/-! ### Clients that are there -/

/-- Every byte passed to `client_write` has been accepted by the socket or is queued. -/
def NoneLost (cl : Client) : Prop :=
  cl.accepted.length + (unsent cl.listResponseWriteBuffer).length = cl.written.length

theorem noneLost_write {cl : Client} {sends : List SendResult} (data : Bytes)
    (hS : sends.all understood = true) (h : NoneLost cl) :
    NoneLost (writeClient cl sends data).client ∧
      (writeClient cl sends data).sends.all understood = true := by
  unfold NoneLost at h
  unfold writeClient
  dsimp only
  split_ifs with hq
  · cases hsend : send sends data.length with
    | mk res sends' =>
      obtain ⟨hS', herr⟩ := send_rest hsend hS
      cases res with
      | ok lenWrite =>
        have hle : lenWrite ≤ data.length := send_le hsend
        dsimp only
        split_ifs with hlt
        · refine ⟨?_, hS'⟩
          simp only [NoneLost, queueFirst, unsent_append_fresh, List.length_append, List.length_take,
            List.length_drop]
          omega
        · refine ⟨?_, hS'⟩
          simp only [NoneLost, List.length_append, List.length_take]
          omega
      | error e =>
        have he : e = .EINPROGRESS := herr e rfl
        simp only [he, ne_eq, not_true_eq_false, if_false]
        refine ⟨?_, hS'⟩
        simp only [NoneLost, queueFirst, unsent_append_fresh, List.length_append]
        omega
  · refine ⟨?_, hS⟩
    simp only [NoneLost, unsent_append_fresh, List.length_append]
    omega

theorem noneLost_rule : ClientRule (fun sends => sends.all understood = true) NoneLost where
  fresh := rfl
  send_side := by
    intro cl cl' h hk
    unfold NoneLost at h ⊢
    rw [hk.accepted, hk.queue, hk.written]
    exact h
  write := fun data hS h => noneLost_write data hS h

theorem noneLost_afterDrain {cl : Client} (sends : List SendResult) (h : NoneLost cl) :
    NoneLost (afterDrain cl (drain cl.listResponseWriteBuffer sends)) := by
  have hlen := drain_length cl.listResponseWriteBuffer sends
  have hclient : NoneLost (drainedClient cl (drain cl.listResponseWriteBuffer sends)) := by
    unfold NoneLost at h
    simp only [NoneLost, drainedClient, List.length_append]
    omega
  unfold afterDrain
  split_ifs
  · exact hclient
  · exact hclient

/-- Answers that `client_write` understands end the loop of `client_writecb` without an error. -/
theorem drain_isError (q : List (Buf UInt8)) {sends : List SendResult}
    (hS : sends.all understood = true) : (drain q sends).isError = false := by
  induction q generalizing sends with
  | nil => rfl
  | cons pos n ih =>
    unfold drain
    cases hsend : send sends pos.rest.length with
    | mk res sends' =>
      obtain ⟨hS', herr⟩ := send_rest hsend hS
      cases res with
      | error e =>
        have he : e = .EINPROGRESS := herr e rfl
        simp only [he, ne_eq, not_true_eq_false, if_false]
        exact ih hS'
      | ok lenWrite =>
        dsimp only
        split_ifs
        · rfl
        · exact ih hS'

/-! ### Clients that are gone -/

/-- Nothing was queued, and everything that was written had been accepted. -/
def Release.clean (d : Release) : Prop := d.queue = [] ∧ d.accepted.length = d.written.length

instance (d : Release) : Decidable d.clean :=
  inferInstanceAs (Decidable (d.queue = [] ∧ d.accepted.length = d.written.length))

/-- A client with an empty queue leaves nothing behind. -/
theorem NoneLost.clean {cl : Client} (h : NoneLost cl) (hq : cl.listResponseWriteBuffer = [])
    (c : ClientId) : (cl.release c).clean := by
  refine ⟨hq, ?_⟩
  unfold NoneLost at h
  rw [hq, unsent_nil, List.length_nil, Nat.add_zero] at h
  exact h

/-- What the handler of `e` releases is clean, or belongs to a client whose peer has gone. -/
def ReleasesOk (w : World) (e : Event) (w' : World) : Prop :=
  ∀ d ∈ w'.released, d ∈ w.released ∨ d.clean ∨ e = .clientGone d.client

theorem ReleasesOk.of_eq {e : Event} (h : w'.released = w.released) : ReleasesOk w e w' := by
  intro d hd
  rw [h] at hd
  exact Or.inl hd

theorem ReleasesOk.trans {e : Event} {w1 : World} (h : ReleasesOk w e w1)
    (h' : ReleasesOk w1 e w') : ReleasesOk w e w' := by
  intro d hd
  rcases h' d hd with hd | hd
  · exact h d hd
  · exact Or.inr hd

/-- A client with an empty queue is freed. -/
theorem releasesOk_dropClient {e : Event} (h : AllClients NoneLost w)
    (hq : ∀ cl, w.clients c = some cl → cl.listResponseWriteBuffer = []) :
    ReleasesOk w e (w.setClient c none) := by
  intro d hd
  rw [World.setClient_released] at hd
  rcases List.mem_append.mp hd with hd | hd
  · exact Or.inl hd
  · cases hc : w.clients c with
    | none =>
      rw [hc] at hd
      exact absurd hd (by simp)
    | some cl =>
      rw [hc, Option.map_some, Option.toList_some, List.mem_singleton] at hd
      rw [hd]
      exact Or.inr (Or.inl ((h c cl hc).clean (hq cl hc) c))

/-- A client that is dropped releases what it holds. -/
theorem Dropped.released (hd : Dropped c w w') :
    ∀ d ∈ w'.released, d ∈ w.released ∨ d.client = c := by
  have hfree : ∀ w1 : World, w1.released = w.released →
      ∀ d ∈ (w1.setClient c none).released, d ∈ w.released ∨ d.client = c := by
    intro w1 hw1 d hd
    rw [World.setClient_released, hw1] at hd
    rcases List.mem_append.mp hd with hd | hd
    · exact Or.inl hd
    · rw [Option.mem_toList, Option.map_eq_some_iff] at hd
      obtain ⟨cl, _, rfl⟩ := hd
      exact Or.inr rfl
  obtain ⟨cl, hc, ⟨_, rfl⟩ | ⟨r, rel, w1, w2, hr, hrel, h1, h2, rfl⟩⟩ := hd
  · exact hfree w rfl
  · apply hfree
    have h2' : w2.released = w1.released := by
      rcases h2 with ⟨_, _, rfl⟩ | ⟨_, rfl⟩ <;> rfl
    exact h2'.trans h1.released

/-! ### The condition -/

/-- The next `send()` accepts a block of `n` bytes as a whole. -/
def takesWhole (sends : List SendResult) (n : ℕ) : Bool :=
  match (send sends n).1 with
  | .ok lenWrite => n ≤ lenWrite
  | .error _ => false

/-- A frame on the stream of the relay `rel` that makes the client drop itself finds the queue of the
client empty; if the frame brings the response header too, its head is accepted as a whole. -/
def frameDrained (w : World) (sends : List SendResult) (rel : Relay) : Frame → Bool
  | .rstStream => nothingQueued w rel.args
  | frame =>
    !frame.completes || (w.clients rel.args).all fun cl =>
      (cl.relay.bind w.relays).all fun rel1 =>
        keepsClient rel1.responseHeader || (cl.listResponseWriteBuffer.isEmpty &&
          (!frame.announces ||
            (responseHead rel1.responseHeader).all fun head => takesWhole sends head.length))

/-- The condition for clean releases: `send()` does not fail, and an event that drops a client whose
peer is still there finds its queue empty. -/
def DropsDrained (w : World) (i : Input) : Bool :=
  i.sends.all understood &&
    match i.event with
    | .timer r =>
      (w.relays r).all fun rel => !rel.tmrConnectd || w.sSession || nothingQueued w rel.args
    | .tunnelFailed => w.tunnel = .closed || w.sListRelays.all fun r =>
      (w.relays r).all fun rel => !rel.isAttached || nothingQueued w rel.args
    | .recvFrame s frame => w.tunnel ≠ .connected || (w.streams s).all fun st =>
      (frame ≠ .rstStream && (st.shutRd || st.closing)) ||
        (st.userData.bind w.relays).all fun rel =>
          !rel.isAttached || frameDrained w i.sends rel frame
    | _ => true

theorem nothingQueued.queue {cl : Client} (h : nothingQueued w c = true)
    (hc : w.clients c = some cl) : cl.listResponseWriteBuffer = [] := by
  rw [nothingQueued, hc, Option.all_some, List.isEmpty_iff] at h
  exact h

/-- A block that is accepted as a whole leaves an empty queue empty. -/
theorem takesWhole.queue {cl : Client} {sends : List SendResult} {data : Bytes}
    (h : takesWhole sends data.length = true) (hq : cl.listResponseWriteBuffer = []) :
    (writeClient cl sends data).client.listResponseWriteBuffer = [] := by
  unfold takesWhole at h
  unfold writeClient
  dsimp only
  rw [if_pos (by rw [hq]; rfl)]
  cases hsend : send sends data.length with
  | mk res sends' =>
    rw [hsend] at h
    cases res with
    | error e => exact absurd h (by simp)
    | ok lenWrite =>
      have hle : data.length ≤ lenWrite := of_decide_eq_true h
      dsimp only
      rw [if_neg (Nat.not_lt.mpr hle)]
      exact hq

/-! ### The handlers -/

theorem Wrote.released {f : Relay → Relay} (hw : Wrote r f w w') : w'.released = w.released := by
  rcases hw with ⟨_, _, rfl⟩ | ⟨_, rfl⟩ <;> rfl

theorem Resumed.released (hr : Resumed r w w') : w'.released = w.released := by
  obtain ⟨w1, h1, h2⟩ := hr.quiet
  exact h2.released.trans h1.released

theorem BodiesWritten.released {bs : List BodyBuffer} (hb : BodiesWritten c r bs w w') :
    w'.released = w.released := by
  induction hb with
  | nil => rfl
  | cons h1 _ ih => exact ih.trans h1.released

theorem Submits.released {cl : Client} {hd : Header} {rel : Relay}
    (hs : Submits c cl r hd rel w w') : w'.released = w.released := by
  obtain ⟨w1, h1, h2⟩ := hs.sent
  have h0 : (submitted (connecting w c cl r hd) r rel hd).released = w.released := by
    unfold submitted
    split_ifs <;> rfl
  exact h2.released.trans (h1.released.trans h0)

theorem Next.released (hn : Next c w w') : w'.released = w.released := by
  cases hn <;> rfl

/-- A response that is over drops its client only when nothing is queued. -/
theorem releasesOk_msgDone {e : Event} (h : AllClients NoneLost w) (hm : MsgDone c w w')
    (hq : ∀ cl r rel, w.clients c = some cl → cl.relay = some r → w.relays r = some rel →
      keepsClient rel.responseHeader = false → cl.listResponseWriteBuffer = []) :
    ReleasesOk w e w' := by
  obtain ⟨cl, r, rel, w1, hc, hr, hrel, hw1, ⟨hk, rfl⟩ | ⟨_, hn⟩⟩ := hm
  · refine releasesOk_dropClient h fun cl' hc' => ?_
    rw [hc] at hc'
    obtain rfl := Option.some.inj hc'
    exact hq cl r rel hc hr hrel hk
  · have h1 : w1.released = w.released := by
      rcases hw1 with ⟨_, rfl⟩ | ⟨_, rfl⟩ <;> rfl
    exact .of_eq (hn.released.trans h1)

/-- The response header of each relay is the one it had before. -/
def HeadersKept (w w' : World) : Prop :=
  ∀ r rel', w'.relays r = some rel' →
    ∃ rel, w.relays r = some rel ∧ rel'.responseHeader = rel.responseHeader

theorem headersKept_ending {rel : Relay} (hr : w.relays r = some rel) :
    HeadersKept w (ending w r rel) := by
  intro r1 rel1 hr1
  rw [ending, World.log_relays, World.setRelay_relays, Function.update_apply] at hr1
  split_ifs at hr1 with he
  · obtain rfl := Option.some.inj hr1
    exact ⟨rel, he ▸ hr, rfl⟩
  · exact ⟨rel1, hr1, rfl⟩

theorem headersKept_heading {rel : Relay} (hr : w.relays r = some rel) :
    HeadersKept w (heading w r rel) := by
  intro r1 rel1 hr1
  rw [heading, World.log_relays, World.setRelay_relays, Function.update_apply] at hr1
  split_ifs at hr1 with he
  · obtain rfl := Option.some.inj hr1
    exact ⟨rel, he ▸ hr, rfl⟩
  · exact ⟨rel1, hr1, rfl⟩

/-- What the condition says of a frame that ends a response whose client is not kept. -/
theorem frameDrained.queue {sends : List SendResult} {rel rel1 : Relay} {frame : Frame} {cl : Client}
    {r1 : RelayId} (h : frameDrained w sends rel frame = true) (hf : frame.completes = true)
    (hc : w.clients rel.args = some cl) (hcr : cl.relay = some r1)
    (hr1 : w.relays r1 = some rel1) (hk : keepsClient rel1.responseHeader = false) :
    cl.listResponseWriteBuffer = [] ∧ (frame.announces = true →
      ∀ head, responseHead rel1.responseHeader = some head →
        takesWhole sends head.length = true) := by
  have h1 : (!frame.completes || (w.clients rel.args).all fun cl =>
      (cl.relay.bind w.relays).all fun rel1 =>
        keepsClient rel1.responseHeader || (cl.listResponseWriteBuffer.isEmpty &&
          (!frame.announces || (responseHead rel1.responseHeader).all fun head =>
            takesWhole sends head.length))) = true := by
    cases frame with
    | rstStream => exact absurd hf (by simp [Frame.completes])
    | _ => exact h
  rw [hf, hc, Option.all_some, hcr, Option.bind_some, hr1, Option.all_some, hk, Bool.not_true,
    Bool.false_or, Bool.false_or, Bool.and_eq_true, List.isEmpty_iff] at h1
  refine ⟨h1.1, fun ha head hhead => ?_⟩
  have h2 := h1.2
  rw [ha, hhead, Option.all_some, Bool.not_true, Bool.false_or] at h2
  exact h2

/-- The end of a response, with the header of the same frame announced before it. -/
theorem releasesOk_hdrMsg {e : Event} {rel : Relay} {frame : Frame} {w1 : World}
    (h : AllClients NoneLost w) (hS : w.sends.all understood = true)
    (hr : w.relays r = some rel) (hg : frameDrained w w.sends rel frame = true)
    (hf : frame.completes = true) (ha : frame.announces = true) (h1 : HdrPhase true r w w1)
    (h2 : MsgPhase r w1 w') : ReleasesOk w e w' := by
  have hl1 : AllClients NoneLost w1 := (h.hdrPhase noneLost_rule hS h1).1
  obtain ⟨rel0, rel1, cl, r1, data, hr0, hk, hc, hcr, _, hhead, rfl⟩ := h1
  obtain rfl : rel = rel0 := Option.some.inj (hr.symm.trans hr0)
  -- the frame ends the stream, so the header is announced as it came
  obtain rfl : rel1 = rel := by
    rcases hk with rfl | ⟨hne, _⟩
    · rfl
    · exact absurd hne (by simp)
  obtain ⟨rel2, hr2, hd⟩ := h2
  have hr2' : rel2 = { rel1 with relayStatus := .headerComplete } := by
    have hself : (wroteTo (heading w r rel1) rel1.args cl data).relays r
        = some { rel1 with relayStatus := .headerComplete } := Function.update_self ..
    exact Option.some.inj (hr2.symm.trans hself)
  have hargs : rel2.args = rel1.args := by rw [hr2']
  have h0 : AllClients NoneLost (ending (wroteTo (heading w r rel1) rel1.args cl data) r rel2) :=
    hl1.of_clients rfl
  refine releasesOk_msgDone (w := ending (wroteTo (heading w r rel1) rel1.args cl data) r rel2)
    h0 hd ?_
  intro cl' r' rel' hc' hcr' hr' hkeep
  have hcl' : cl' = (writeClient cl w.sends data).client := by
    have hself : (wroteTo (heading w r rel1) rel1.args cl data).clients rel1.args
        = some (writeClient cl w.sends data).client := Function.update_self ..
    rw [hargs] at hc'
    exact Option.some.inj (hc'.symm.trans hself)
  have hctl : cl'.relay = cl.relay := by
    rw [hcl']
    exact (writeClient_ctl cl w.sends data).relay
  obtain rfl : r1 = r' := Option.some.inj (hcr.symm.trans (hctl.symm.trans hcr'))
  -- the header of the client's relay is the same all along
  obtain ⟨relb, hrb, hhb⟩ := headersKept_ending hr2 r1 rel' hr'
  obtain ⟨rela, hra, hha⟩ := headersKept_heading hr r1 relb hrb
  obtain ⟨relh, hrh, hhd⟩ := hhead
  obtain rfl : relh = relb := Option.some.inj (hrh.symm.trans hrb)
  rw [hhb, hha] at hkeep
  rw [hha] at hhd
  obtain ⟨hq, htake⟩ := frameDrained.queue hg hf hc hcr hra hkeep
  rw [hcl']
  exact takesWhole.queue (htake ha data hhd) hq

theorem releasesOk_reported {e : Event} {userData : Option RelayId} {frame : Frame}
    (h : AllClients NoneLost w) (hS : w.sends.all understood = true)
    (hg : ∀ r rel, userData = some r → w.relays r = some rel → rel.isAttached = true →
      frameDrained w w.sends rel frame = true)
    (hr : Reported w userData frame w') : ReleasesOk w e w' := by
  cases hr with
  | ignored => exact .of_eq rfl
  | @phases r rel w1 _ hu hr ha h1 h2 =>
    have hgr := hg r rel hu hr ha
    cases hcomp : frame.completes with
    | false =>
      rw [hcomp, if_neg Bool.false_ne_true] at h2
      subst h2
      split_ifs at h1
      · obtain ⟨rel0, rel1, cl, r1, data, _, _, _, _, _, _, rfl⟩ := h1
        exact .of_eq rfl
      · exact .of_eq (congrArg World.released h1)
    | true =>
      rw [hcomp, if_pos rfl] at h2
      cases hann : frame.announces with
      | true =>
        have hend : frame.endStream = true := by
          cases frame with
          | headers flags => exact hcomp
          | _ => exact absurd hann (by simp [Frame.announces])
        rw [hann, if_pos rfl, hend] at h1
        exact releasesOk_hdrMsg h hS hr hgr hcomp hann h1 h2
      | false =>
        rw [hann, if_neg Bool.false_ne_true] at h1
        subst h1
        obtain ⟨rel0, hr0, hd⟩ := h2
        obtain rfl : rel = rel0 := Option.some.inj (hr.symm.trans hr0)
        have h0 : AllClients NoneLost (ending w1 r rel) := h.of_clients rfl
        refine releasesOk_msgDone (w := ending w1 r rel) h0 hd ?_
        intro cl r1 rel1 hc hcr hr1 hkeep
        obtain ⟨rela, hra, hha⟩ := headersKept_ending hr r1 rel1 hr1
        rw [hha] at hkeep
        exact (frameDrained.queue hgr hcomp hc hcr hra hkeep).1

/-- Every attached relay of the list has a client with an empty queue. -/
def ListDrained (rs : List RelayId) (w : World) : Prop :=
  ∀ r ∈ rs, ∀ rel cl, w.relays r = some rel → rel.isAttached = true →
    w.clients rel.args = some cl → cl.listResponseWriteBuffer = []

/-- Freeing a relay leaves the other relays and the clients. -/
theorem ListDrained.freed {rs : List RelayId} {rel : Relay} (h : ListDrained rs w) :
    ListDrained rs (freed w r rel) :=
  fun r1 hmem rel1 cl hr1 ha hc => h r1 hmem rel1 cl (by
    rw [H2ClientProxy.freed, World.removeRelay_relays, Function.update_apply] at hr1
    split_ifs at hr1
    exact hr1) ha hc

theorem ListDrained.dropClient {rs : List RelayId} (h : ListDrained rs w) :
    ListDrained rs (w.setClient c none) := by
  intro r1 hmem rel1 cl hr1 ha hc
  rw [World.setClient_clients, Function.update_apply] at hc
  split_ifs at hc
  exact h r1 hmem rel1 cl hr1 ha hc

theorem releasesOk_dropClients {e : Event} {rs : List RelayId} (h : AllClients NoneLost w)
    (hq : ListDrained rs w) (hd : DropClients rs w w') : ReleasesOk w e w' := by
  induction hd with
  | nil => exact .of_eq rfl
  | @cons r rs w w1 w' h1 _ ih =>
    have hq' : ListDrained rs w := fun r1 hmem => hq r1 (List.mem_cons_of_mem r hmem)
    cases h1 with
    | @attached rel hr ha hc =>
      have h0 : AllClients NoneLost
          (w.log (.event r .errConnFailed rel.responseHeader rel.bodyData)) := h.of_clients rfl
      have hq0 : ListDrained rs
          (w.log (.event r .errConnFailed rel.responseHeader rel.bodyData)) := hq'
      refine ReleasesOk.trans ?_ (ih ((h0.dropClient rel.args).of_clients rfl) hq0.dropClient.freed)
      exact releasesOk_dropClient h0 fun cl hcl =>
        hq r (List.mem_cons_self ..) rel cl hr ha hcl
    | detached hr ha => exact ReleasesOk.trans (.of_eq rfl) (ih (h.of_clients rfl) hq'.freed)

/-! ### Steps and runs -/

/-- **A step under the condition releases clean queues only.** -/
theorem releasesOk_handled {i : Input} (h : AllClients NoneLost w) (hw : w.sends = i.sends)
    (hg : DropsDrained w i = true) (hh : Handled w i.event w') : ReleasesOk w i.event w' := by
  rw [DropsDrained, Bool.and_eq_true] at hg
  obtain ⟨hS, hg⟩ := hg
  rw [← hw] at hS
  generalize i.event = e at hg hh
  cases hh with
  | skip => exact .of_eq rfl
  | accept => exact .of_eq rfl
  | msgBegin hc hp hb => exact .of_eq rfl
  | reqHeader hc hk hs => exact .of_eq rfl
  | headersComplete hc hp hd => cases hd <;> exact .of_eq rfl
  | bodyQueued hc hp hr hrel hst => exact .of_eq rfl
  | bodyWritten hc hp hr hrel hst hs => exact .of_eq hs.released
  | messageComplete hc hp hr hw => exact .of_eq hw.released
  | clientGone hd =>
    -- the client that went away itself is the one that may lose bytes
    intro d hd'
    rcases hd.released d hd' with hd' | rfl
    · exact Or.inl hd'
    · exact Or.inr (Or.inr rfl)
  | writable hc hm hd =>
    cases hd with
    | empty hc hq hr hres => exact .of_eq hres.released
    | error hc hq hout herr hdrop =>
      -- under the condition no send fails for good
      rw [hout, drain_isError _ hS] at herr
      exact absurd herr (by simp)
    | full hc hq hout herr hlen hw =>
      rw [hw]
      exact .of_eq rfl
    | resumed hc hq hout herr hlen hr hres => exact .of_eq hres.released
  | timerConnected hr ht hs h1 h2 => exact .of_eq (h2.released.trans h1.released)
  | @timerFailed r rel hr ht hs hc =>
    -- a client that is dropped has nothing queued
    have h0 : AllClients NoneLost (timed w r rel .errConnFailed) := h.of_clients rfl
    refine releasesOk_dropClient (w := timed w r rel .errConnFailed) h0 fun cl hcl => ?_
    simp only [hr, Option.all_some, ht, hs, Bool.not_true, Bool.false_or] at hg
    exact nothingQueued.queue hg hcl
  | tunnelConnected ht => exact .of_eq rfl
  | tunnelFailed ht hd =>
    have h0 : AllClients NoneLost (w.setTunnel .closed w.sSession) := h.of_clients rfl
    suffices hq : ListDrained w.sListRelays (w.setTunnel .closed w.sSession) by
      have h1 := releasesOk_dropClients (e := .tunnelFailed) h0 hq hd
      exact h1
    intro r hmem rel cl hr ha hc
    have hr' : w.relays r = some rel := hr
    simp only [ht, decide_false, Bool.false_or, List.all_eq_true] at hg
    have h1 := hg r hmem
    rw [hr', Option.all_some, ha, Bool.not_true, Bool.false_or] at h1
    exact nothingQueued.queue h1 hc
  | recvHeader ht hs hu hr hdr => exact .of_eq rfl
  | @frame s frame st w1 _ ht hs hopen h1 h2 =>
    have hrep : ReleasesOk w (.recvFrame s frame) w1 := by
      refine releasesOk_reported h hS ?_ h1
      intro r rel hu hr ha
      simp only [ht, hs, hu, hr, hopen, ha, ne_eq, not_true_eq_false, decide_false, Bool.false_or,
        Option.all_some, Option.bind_some, Bool.and_false, Bool.not_true] at hg
      rw [hw]
      exact hg
    split_ifs at h2
    · exact hrep.trans (.of_eq h2.released)
    · exact h2 ▸ hrep
  | @rst s st w1 _ ht hs h1 h2 h3 =>
    refine ReleasesOk.trans ?_ (.of_eq h2.released)
    cases h1 with
    | ignored => exact .of_eq rfl
    | @dropped r rel hu hr ha hc =>
      have h0 : AllClients NoneLost
          (w.log (.event r .errConnFailed rel.responseHeader rel.bodyData)) := h.of_clients rfl
      refine releasesOk_dropClient
        (w := w.log (.event r .errConnFailed rel.responseHeader rel.bodyData)) h0 fun cl hcl => ?_
      simp only [ht, hs, hu, hr, ha, ne_eq, not_true_eq_false, decide_false, Bool.false_or,
        Option.all_some, Option.bind_some, Bool.false_and, Bool.not_true, frameDrained] at hg
      exact nothingQueued.queue hg hcl
  | recvData ht hs hopen hd =>
    -- a write may leave bytes in the queue, but releases none
    cases hd with
    | ignored => exact .of_eq rfl
    | @written r rel rel1 w1 w2 _ hu hr ha h1 hr1 h2 h3 =>
      have hw1 : w1.released = w.released := (h1.quiet (D := fun _ => False)).released
      have hw2 : w2.released = w1.released := by
        split_ifs at h2
        · rw [h2]
          rfl
        · rw [h2]
      exact .of_eq (h3.released.trans (hw2.trans hw1))
  | protocolError ht hs h1 h2 =>
    split_ifs at h2
    · exact .of_eq (h2.released.trans h1.released)
    · exact .of_eq (h2 ▸ h1.released)
  | goaway ht hs hq => exact .of_eq hs.released
  | connectionError ht => exact .of_eq rfl
  | sessionSend ht hs => exact .of_eq hs.released

/-- A step keeps every byte of the clients that are there. -/
theorem noneLost_step (i : Input) (h : AllClients NoneLost w) (hg : DropsDrained w i = true) :
    wp (step i) (fun _ w' => AllClients NoneLost w' ∧ ReleasesOk w i.event w') (fun _ _ => True)
      w := by
  have h0 : AllClients NoneLost (prepared w i) := h.of_clients rfl
  have hS : (prepared w i).sends.all understood = true := by
    rw [DropsDrained, Bool.and_eq_true] at hg
    exact hg.1
  refine step_spec i (fun w' hh => ⟨?_, ?_⟩) fun _ _ _ => trivial
  · refine h0.handled noneLost_rule hS hh ?_ ?_
    · intro c cl _ _ _ hc
      exact h0 c cl hc
    · intro c cl _ hc _ _
      exact noneLost_afterDrain _ (h0 c cl hc)
  · have h1 : ReleasesOk (prepared w i) i.event w' := releasesOk_handled h0 rfl hg hh
    exact h1

/-- **Clean releases.**  In a run under `DropsDrained` no byte is lost while a client is there, and
the step `i` that follows it releases the queue of a client only when it is empty and everything has
been accepted, or when the peer of that client has gone. -/
theorem wp_run_releasesOk (is : List Input) (i : Input)
    (hG : Meets step (fun w i => DropsDrained w i = true) (is ++ [i]) World.init) :
    wp (run step is)
      (fun _ w => AllClients NoneLost w ∧
        wp (step i) (fun _ w' => ReleasesOk w i.event w') (fun _ _ => True) w)
      (fun _ _ => True) World.init := by
  have hinit : AllClients NoneLost World.init := by
    intro c cl hc
    exact absurd hc (by simp [World.init])
  exact run_step_wp (fun w j h hg => noneLost_step j h hg) hinit hG

instance (w : World) (e : Event) (w' : World) : Decidable (ReleasesOk w e w') :=
  inferInstanceAs (Decidable (∀ d ∈ w'.released, d ∈ w.released ∨ d.clean ∨ e = .clientGone d.client))

/-- A response without length information up to its last frame; the socket takes `n` bytes of the
body at once. -/
def unframedResponse (n : ℕ) : List Input :=
  inputs (opening ++ getRequest 0 ++ [.timer 0,
    .recvHeader 1 .response (bytes ":status") (bytes "404"), .recvFrame 1 (.headers 4)]) ++
  [{ event := .recvData 1 (bytes "not found"), sends := [.accepted n] }]

/-- With a client that is fast enough nothing is lost. -/
theorem wp_run_releasesOk_fast :
    Meets step (fun w i => DropsDrained w i = true)
      (unframedResponse 9 ++ [{ event := .recvFrame 1 (.data 1) }]) World.init ∧
    wp (run step (unframedResponse 9))
      (fun _ w => AllClients NoneLost w ∧
        wp (step { event := .recvFrame 1 (.data 1) })
          (fun _ w' => ReleasesOk w (.recvFrame 1 (.data 1)) w') (fun _ _ => True) w)
      (fun _ _ => True) World.init :=
  ⟨by decide +kernel,
    wp_run_releasesOk (unframedResponse 9) { event := .recvFrame 1 (.data 1) } (by decide +kernel)⟩

/-- A slow client loses the end of the body, although no `send()` failed and the peer is there. -/
theorem not_releasesOk : ¬ ∀ (is : List Input) (i : Input),
    (∀ j ∈ is ++ [i], j.sends.all understood = true) →
    wp (run step is)
      (fun _ w => wp (step i) (fun _ w' => ReleasesOk w i.event w') (fun _ _ => True) w)
      (fun _ _ => True) World.init := by
  intro h
  have h1 := h (unframedResponse 4) { event := .recvFrame 1 (.data 1) } (by decide)
  have h2 : wp (run step (unframedResponse 4))
      (fun _ w => wp (step { event := .recvFrame 1 (.data 1) })
        (fun _ w' => ¬ ReleasesOk w (.recvFrame 1 (.data 1)) w') (fun _ _ => False) w)
      (fun _ _ => False) World.init := by decide +kernel
  obtain ⟨_, w, hw⟩ := exists_of_wp (wp_mono (wp_and h1 h2) (fun _ _ => id) fun _ _ hf => hf.2)
  obtain ⟨_, _, hw'⟩ := exists_of_wp (wp_mono (wp_and hw.1 hw.2) (fun _ _ => id) fun _ _ hf => hf.2)
  exact hw'.2 hw'.1

end H2ClientProxy
