import H2ClientProxy.Equiv.Linked

/-!
# Properties of the send side of every client

The bytes for a client pass through `client_write` and `client_writecb` alone; everything else
leaves the send side of a client as it is, or changes only the event mask of its file.  A property
`P` of one client is therefore kept by a step as soon as it is kept by these (`ClientRule` and the
hypotheses of `AllClients.handled`).
-/

namespace H2ClientProxy

open Wp Machine SendQueue

/-- Every client that is there satisfies `P`. -/
def AllClients (P : Client → Prop) (w : World) : Prop := ∀ c cl, w.clients c = some cl → P cl

/-- `P` is a property of the send side that `client_write` keeps while the answers of `send()`
satisfy `S`. -/
structure ClientRule (S : List SendResult → Prop) (P : Client → Prop) : Prop where
  fresh : P { file := epFileDetect epFileCreate EP_READ (30 * 1000) }
  send_side : ∀ {cl cl' : Client}, P cl → SendSideKept cl cl' → P cl'
  write : ∀ {cl : Client} {sends : List SendResult} (data : Bytes), S sends → P cl →
    P (writeClient cl sends data).client ∧ S (writeClient cl sends data).sends

/-- The events after which the mask of a client's file is set without a look at what is queued. -/
def SetsMask (w : World) (e : Event) (c : ClientId) : Prop :=
  (∃ method cl, e = .headersComplete c method ∧ w.clients c = some cl ∧ cl.parser = .head) ∨
    ∃ r rel, e = .timer r ∧ w.relays r = some rel ∧ rel.tmrConnectd = true ∧ w.sSession = true ∧
      rel.args = c

variable {P : Client → Prop} {S : List SendResult → Prop} {D : StreamId → Prop}
  {w w' : World} {c : ClientId}

/-! ### Elementary changes -/

theorem SendSideKept.refl (cl : Client) : SendSideKept cl cl := ⟨rfl, rfl, rfl, rfl, rfl⟩

theorem AllClients.of_clients (h : AllClients P w) (he : w'.clients = w.clients) :
    AllClients P w' := by
  intro c cl hc
  rw [he] at hc
  exact h c cl hc

/-- Sending to the tunnel does not touch the clients. -/
theorem Sent.clients_eq (hs : Sent D w w') : w'.clients = w.clients := by
  funext c
  have hc := hs.clients c
  generalize w.clients c = a, w'.clients c = b at hc
  cases hc with
  | none => rfl
  | some he => rw [he]

theorem AllClients.sent (h : AllClients P w) (hs : Sent D w w') : AllClients P w' :=
  h.of_clients hs.clients_eq

theorem AllClients.setClient {cl : Client} (h : AllClients P w) (hP : P cl) :
    AllClients P (w.setClient c (some cl)) := by
  intro c' cl' hc'
  rw [World.setClient_clients, Function.update_apply] at hc'
  split_ifs at hc'
  · obtain rfl := Option.some.inj hc'
    exact hP
  · exact h c' cl' hc'

theorem AllClients.dropClient (h : AllClients P w) (c : ClientId) :
    AllClients P (w.setClient c none) := by
  intro c' cl' hc'
  rw [World.setClient_clients, Function.update_apply] at hc'
  split_ifs at hc'
  exact h c' cl' hc'

theorem Wrote.clients_eq {r : RelayId} {f : Relay → Relay} (hw : Wrote r f w w') :
    w'.clients = w.clients := by
  rcases hw with ⟨rel, _, rfl⟩ | ⟨_, rfl⟩ <;> rfl

theorem AllClients.wrote {r : RelayId} {f : Relay → Relay} (h : AllClients P w)
    (hw : Wrote r f w w') : AllClients P w' :=
  h.of_clients hw.clients_eq

/-! ### The handlers -/

section Handlers

variable (rule : ClientRule S P)

include rule

/-- Calls of `client_write` keep the property. -/
theorem ClientRule.writes {p p' : Client × List SendResult} (hw : Writes p p') (hS : S p.2)
    (hP : P p.1) : P p'.1 ∧ S p'.2 := by
  induction hw with
  | refl => exact ⟨hP, hS⟩
  | tail _ h1 ih =>
    obtain ⟨data, rfl⟩ := h1
    exact rule.write data ih.2 ih.1

theorem AllClients.written {cl cl' : Client} (h : AllClients P w) (hS : S w.sends)
    (hw : Written c cl cl' w w') : AllClients P w' ∧ S w'.sends := by
  obtain ⟨sends, hc, hwr, rfl⟩ := hw
  obtain ⟨hP, hS'⟩ := rule.writes hwr hS (h c cl hc)
  exact ⟨AllClients.setClient (h.of_clients rfl) hP, hS'⟩

theorem AllClients.msgDone (h : AllClients P w) (hS : S w.sends) (hm : MsgDone c w w') :
    AllClients P w' := by
  obtain ⟨cl, r, rel, w1, hc, hr, hrel, hw1, hend⟩ := hm
  have h1 : AllClients P w1 := by
    rcases hw1 with ⟨_, rfl⟩ | ⟨_, rfl⟩
    · exact h
    · exact (h.written rule hS (written_wroteTo hc lastChunk)).1
  rcases hend with ⟨_, rfl⟩ | ⟨_, hn⟩
  · exact h.dropClient c
  · cases hn with
    | idle hc1 hp => exact h1.setClient (rule.send_side (h1 c _ hc1) ⟨rfl, rfl, rfl, rfl, rfl⟩)
    | next hc1 hp =>
      refine AllClients.setClient (h1.of_clients rfl) ?_
      exact rule.send_side (h1 c _ hc1) ⟨rfl, rfl, rfl, rfl, rfl⟩

theorem AllClients.bodyDone (h : AllClients P w) (hS : S w.sends) (hb : BodyDone c w w') :
    AllClients P w' := by
  obtain ⟨cl, r, rel, cl1, w1, _, _, hw, hend⟩ := hb
  have h1 := (h.written rule hS hw).1
  rcases hend with ⟨_, rfl⟩ | ⟨_, rfl⟩
  · exact h1.of_clients rfl
  · exact h1

theorem AllClients.hdrPhase {ends : Bool} {r : RelayId} (h : AllClients P w) (hS : S w.sends)
    (hp : HdrPhase ends r w w') : AllClients P w' ∧ S w'.sends := by
  obtain ⟨rel, rel1, cl, r1, data, hr, hk, hc, _, _, _, rfl⟩ := hp
  have h1 : AllClients P (heading w r rel1) := h.of_clients rfl
  exact h1.written rule hS (written_wroteTo (w := heading w r rel1) hc data)

theorem AllClients.reported {userData : Option RelayId} {frame : Frame} (h : AllClients P w)
    (hS : S w.sends) (hr : Reported w userData frame w') : AllClients P w' := by
  cases hr with
  | ignored => exact h
  | phases hu hr ha h1 h2 =>
    rename_i r rel w1
    have hl1 : AllClients P w1 ∧ S w1.sends := by
      split_ifs at h1
      · exact h.hdrPhase rule hS h1
      · exact h1 ▸ ⟨h, hS⟩
    split_ifs at h2
    · obtain ⟨rel1, hr1, hd⟩ := h2
      exact AllClients.msgDone rule (w := ending w1 r rel1) hl1.1 hl1.2 hd
    · exact h2 ▸ hl1.1

end Handlers

theorem AllClients.shutRd {s : StreamId} (h : AllClients P w) (hs : ShutRd s w w') :
    AllClients P w' := by
  have h1 : AllClients P (w.mapStream s ({ · with shutRd := true })) := h.of_clients rfl
  exact h1.sent hs

/-- Dropping a client leaves the others alone. -/
theorem Dropped.clients_eq (hd : Dropped c w w') :
    w'.clients = Function.update w.clients c none := by
  obtain ⟨cl, hc, ⟨_, rfl⟩ | ⟨r, rel, w1, w2, _, _, h1, h2, rfl⟩⟩ := hd
  · rfl
  · rw [World.setClient_clients, h2.clients_eq, h1.clients_eq, World.log_clients]

/-- What is left of a client that is dropped does not matter. -/
theorem AllClients.dropped {cl : Option Client} (h : AllClients P w)
    (hd : Dropped c (w.setClient c cl) w') : AllClients P w' := by
  have hw' : w'.clients = (w.setClient c none).clients := by
    rw [hd.clients_eq, World.setClient_clients, World.setClient_clients, Function.update_idem]
  exact (h.dropClient c).of_clients hw'

/-- Resuming a relay does not touch the clients. -/
theorem Resumed.clients_eq {r : RelayId} (hr : Resumed r w w') : w'.clients = w.clients := by
  obtain ⟨rel, w1, _, h1, h2⟩ := hr
  rw [h2.clients_eq]
  rcases h1 with ⟨rfl, _⟩ | h1
  · rfl
  · exact h1.clients_eq

theorem AllClients.resumed {r : RelayId} (h : AllClients P w) (hr : Resumed r w w') :
    AllClients P w' :=
  h.of_clients hr.clients_eq

theorem AllClients.bodiesWritten {r : RelayId} {bs : List BodyBuffer} (h : AllClients P w)
    (hb : BodiesWritten c r bs w w') : AllClients P w' := by
  induction hb with
  | nil => exact h
  | @cons b bs w w1 w' h1 _ ih =>
    have h0 : AllClients P (w.log (.writeBody r c b.req b.data)) := h.of_clients rfl
    exact ih (h0.sent h1)

theorem AllClients.dropClients {rs : List RelayId} (h : AllClients P w)
    (hd : DropClients rs w w') : AllClients P w' := by
  induction hd with
  | nil => exact h
  | cons h1 _ ih =>
    refine ih ?_
    cases h1 with
    | attached hr ha hc => exact (h.dropClient _).of_clients rfl
    | detached hr ha => exact h.of_clients rfl

/-- **A step keeps a property of the send side of every client**, if the two places that set the
mask of a client and the loop of `client_writecb` keep it. -/
theorem AllClients.handled {e : Event} (rule : ClientRule S P) (h : AllClients P w)
    (hS : S w.sends) (hh : Handled w e w')
    (hmask : ∀ c cl what timeout, SetsMask w e c → w.clients c = some cl →
      P { cl with file := epFileDetect cl.file what timeout })
    (hdrain : ∀ c cl, e = .writable c → w.clients c = some cl →
      cl.listResponseWriteBuffer ≠ [] →
      (drain cl.listResponseWriteBuffer w.sends).isError = false →
      P (afterDrain cl (drain cl.listResponseWriteBuffer w.sends))) :
    AllClients P w' := by
  cases hh with
  | skip => exact h
  | accept =>
    intro c cl hc
    rw [World.addClient_clients, Function.update_apply] at hc
    split_ifs at hc
    · obtain rfl := Option.some.inj hc
      exact rule.fresh
    · exact h c cl hc
  | msgBegin hc hp hb =>
    refine h.setClient (rule.send_side (h _ _ hc) ?_)
    cases hb <;> exact ⟨rfl, rfl, rfl, rfl, rfl⟩
  | reqHeader hc hk hs => exact h.setClient (rule.send_side (h _ _ hc) hs)
  | @headersComplete c method cl _ hc hp hd =>
    -- the header may change, and then the mask is set
    have hcomp : ∀ h' : Header, P (completed cl h') := by
      intro h'
      have hk : SendSideKept cl (setReqHeader cl h') := setReqHeader_send h'
      have hset : SetsMask w (.headersComplete c method) c := Or.inl ⟨method, cl, rfl, hc, hp⟩
      exact rule.send_side (hmask c cl 0 (-1) hset hc)
        ⟨rfl, hk.queue, hk.pendingWrite, hk.written, hk.accepted⟩
    cases hd with
    | pending hh hid hp => exact AllClients.setClient (h.of_clients rfl) (hcomp _)
    | create hh hid hp =>
      refine AllClients.setClient (h.of_clients rfl) ?_
      exact rule.send_side (hcomp _) ⟨rfl, rfl, rfl, rfl, rfl⟩
  | bodyQueued hc hp hr hrel hst =>
    exact h.setClient (rule.send_side (h _ _ hc) ⟨rfl, rfl, rfl, rfl, rfl⟩)
  | @bodyWritten c data cl r rel _ hc hp hr hrel hst hs =>
    have h0 : AllClients P (w.log (.writeBody r c cl.reqNo data)) := h.of_clients rfl
    exact h0.sent hs
  | @messageComplete c cl r _ hc hp hr hw =>
    have h0 : AllClients P (w.setClient c (some { cl with parser := .idle })) :=
      h.setClient (rule.send_side (h c cl hc) ⟨rfl, rfl, rfl, rfl, rfl⟩)
    exact h0.of_clients hw.clients_eq
  | @clientGone c _ hd =>
    exact (h.dropClient c).of_clients hd.clients_eq
  | @writable c cl _ hc hm hd =>
    cases hd with
    | empty hc hq hr hres => exact h.resumed hres
    | @error cl out hc hq hout herr hdrop =>
      have h0 : AllClients P (w.setSends out.sends) := h.of_clients rfl
      exact h0.dropped hdrop
    | full hc hq hout herr hlen hw =>
      subst hout
      rw [hw]
      exact AllClients.setClient (h.of_clients rfl) (hdrain c _ rfl hc hq herr)
    | @resumed cl out r hc hq hout herr hlen hr hres =>
      subst hout
      have h0 : AllClients P ((w.setSends (drain cl.listResponseWriteBuffer w.sends).sends).setClient
          c (some (afterDrain cl (drain cl.listResponseWriteBuffer w.sends)))) :=
        AllClients.setClient (h.of_clients rfl) (hdrain c _ rfl hc hq herr)
      exact h0.resumed hres
  | @timerConnected r rel cl r1 hd rel1 w1 _ hr ht hs h1 h2 =>
    refine AllClients.bodiesWritten ?_ h2
    obtain ⟨w2, hs1, hs2⟩ := h1.sent
    have hcl : w.clients rel.args = some cl := h1.client
    have hP := hmask rel.args cl EP_READ (-1)
      (Or.inr ⟨r, rel, rfl, hr, ht, hs, rfl⟩) hcl
    have h0 : AllClients P (connecting (timed w r rel .connected) rel.args cl r1 hd) := by
      refine AllClients.of_clients (AllClients.setClient (h.of_clients rfl) ?_) rfl
      exact rule.send_side hP ⟨rfl, rfl, rfl, rfl, rfl⟩
    have h3 : AllClients P w2 := (h0.of_clients (submitted_clients ..)).sent hs1
    exact h3.wrote hs2
  | timerFailed hr ht hs hc => exact (h.of_clients rfl).dropClient _
  | tunnelConnected ht => exact h.of_clients rfl
  | tunnelFailed ht hd =>
    have h0 : AllClients P (w.setTunnel .closed w.sSession) := h.of_clients rfl
    exact (h0.dropClients hd).of_clients rfl
  | recvHeader ht hs hu hr hdr => exact h.of_clients rfl
  | frame ht hs hopen h1 h2 =>
    split_ifs at h2
    · exact (h.reported rule hS h1).shutRd h2
    · exact h2 ▸ h.reported rule hS h1
  | rst ht hs h1 h2 h3 =>
    refine AllClients.sent ?_ h2
    cases h1 with
    | ignored => exact h
    | dropped hu hr ha hc => exact (h.dropClient _).of_clients rfl
  | recvData ht hs hopen hd =>
    cases hd with
    | ignored => exact h.of_clients rfl
    | @written r rel rel1 w1 w2 _ hu hr ha h1 hr1 h2 h3 =>
      refine AllClients.sent ?_ h3
      have hw1 : AllClients P w1 :=
        AllClients.bodyDone rule (w := chunked w _ r rel _) h hS h1
      split_ifs at h2
      · exact h2 ▸ hw1.of_clients rfl
      · exact h2 ▸ hw1
  | protocolError ht hs h1 h2 =>
    split_ifs at h2
    · exact (h.sent h1).shutRd h2
    · exact h2 ▸ h.sent h1
  | goaway ht hs hq =>
    have h0 : AllClients P w.setGoaway := h.of_clients rfl
    exact h0.sent hs
  | connectionError ht => exact h.of_clients rfl
  | sessionSend ht hs => exact h.sent hs

end H2ClientProxy
