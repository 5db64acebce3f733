import H2ClientProxy.Equiv.Clients
import H2ClientProxy.Equiv.Header

/-!
# The request that a client's parser is in

Everything but the callbacks of a client's own parser leaves the header of the request that is being
parsed as it is: a response that ends in the meantime may make the pending header the current one, or
may take the client away, but it does not touch the text (`HeadsKept`).

* `Handled.heads`, `Handled.clients_of_ne`: the events that are no callbacks of this parser.
* `wp_run_url`: the url of a request is the concatenation of its `on_url` fragments iff there is one
  fragment, whatever happens between the fragments.
* `not_url_eq_flatten`: two fragments.
-/

namespace H2ClientProxy

open Wp Machine SendQueue

variable {w w' w1 : World} {c : ClientId} {cl cl' : Client} {D : StreamId → Prop}

/-- The parser of the client is where it was, and its header, if it still has one, is the same. -/
structure HeadKept (cl cl' : Client) : Prop where
  parser : cl'.parser = cl.parser
  header : reqHeader cl' = none ∨ reqHeader cl' = reqHeader cl

/-- Every client that is still there is in the same request as before. -/
structure HeadsKept (w w' : World) : Prop where
  nextClient : w'.nextClient = w.nextClient
  client : ∀ c cl', w'.clients c = some cl' → ∃ cl, w.clients c = some cl ∧ HeadKept cl cl'

/-! ### Elementary changes -/

theorem HeadKept.refl (cl : Client) : HeadKept cl cl := ⟨rfl, Or.inr rfl⟩

theorem HeadKept.trans {cl1 : Client} (h : HeadKept cl cl1) (h' : HeadKept cl1 cl') :
    HeadKept cl cl' := by
  refine ⟨h'.parser.trans h.parser, ?_⟩
  rcases h'.header with hn | he
  · exact Or.inl hn
  · rw [he]
    exact h.header

/-- A change of neither header and not of the parser. -/
theorem HeadKept.of_eq (hp : cl'.parser = cl.parser) (hh : cl'.requestHeader = cl.requestHeader)
    (hn : cl'.pendingRequestHeader = cl.pendingRequestHeader) : HeadKept cl cl' := by
  refine ⟨hp, Or.inr ?_⟩
  unfold reqHeader
  rw [hh, hn]

theorem HeadsKept.of_clients (hc : w'.clients = w.clients) (hn : w'.nextClient = w.nextClient) :
    HeadsKept w w' := by
  refine ⟨hn, fun c cl' hc' => ⟨cl', ?_, .refl cl'⟩⟩
  rw [← hc]
  exact hc'

theorem HeadsKept.refl (w : World) : HeadsKept w w := .of_clients rfl rfl

theorem HeadsKept.trans (h : HeadsKept w w1) (h' : HeadsKept w1 w') : HeadsKept w w' := by
  refine ⟨h'.nextClient.trans h.nextClient, ?_⟩
  intro c cl' hc'
  obtain ⟨cl1, hc1, hk1⟩ := h'.client c cl' hc'
  obtain ⟨cl, hc, hk⟩ := h.client c cl1 hc1
  exact ⟨cl, hc, hk.trans hk1⟩

/-- One client changes. -/
theorem HeadsKept.of_update (he : w'.clients = Function.update w.clients c (some cl'))
    (hn : w'.nextClient = w.nextClient) (hc : w.clients c = some cl) (hk : HeadKept cl cl') :
    HeadsKept w w' := by
  refine ⟨hn, fun c' cl1 hc1 => ?_⟩
  rw [he, Function.update_apply] at hc1
  split_ifs at hc1 with hcc
  · obtain rfl := Option.some.inj hc1
    exact ⟨cl, hcc ▸ hc, hk⟩
  · exact ⟨cl1, hc1, .refl cl1⟩

/-- One client goes. -/
theorem HeadsKept.of_drop (he : w'.clients = Function.update w.clients c none)
    (hn : w'.nextClient = w.nextClient) : HeadsKept w w' := by
  refine ⟨hn, fun c' cl1 hc1 => ?_⟩
  rw [he, Function.update_apply] at hc1
  split_ifs at hc1
  exact ⟨cl1, hc1, .refl cl1⟩

theorem Sent.heads (h : Sent D w w') : HeadsKept w w' := .of_clients h.clients_eq h.nextClient

theorem Wrote.heads {r : RelayId} {f : Relay → Relay} (h : Wrote r f w w') : HeadsKept w w' := by
  rcases h with ⟨rel, _, rfl⟩ | ⟨_, rfl⟩ <;> exact .of_clients rfl rfl

/-! ### The handlers -/

theorem writeClient_head (cl : Client) (sends : List SendResult) (data : Bytes) :
    HeadKept cl (writeClient cl sends data).client := by
  unfold writeClient
  dsimp only
  split_ifs
  · split
    · split_ifs <;> exact .of_eq rfl rfl rfl
    · split_ifs <;> exact .of_eq rfl rfl rfl
  · exact .of_eq rfl rfl rfl

theorem Writes.head {p p' : Client × List SendResult} (h : Writes p p') : HeadKept p.1 p'.1 := by
  induction h with
  | refl => exact .refl _
  | tail _ h1 ih =>
    obtain ⟨data, rfl⟩ := h1
    exact ih.trans (writeClient_head _ _ data)

theorem Written.heads (h : Written c cl cl' w w') : HeadsKept w w' := by
  obtain ⟨sends, hc, hw, rfl⟩ := h
  exact .of_update rfl rfl hc hw.head

/-- The pending header becomes the current one, and stays the one that is being parsed. -/
theorem Next.heads (hn : Next c w w') : HeadsKept w w' := by
  cases hn with
  | idle hc hp =>
    refine .of_update rfl rfl hc ⟨rfl, Or.inl ?_⟩
    simp only [reqHeader, hp]
  | @next cl h hc hp =>
    refine .of_update rfl rfl hc ⟨rfl, Or.inr ?_⟩
    simp only [reqHeader, hp]

theorem MsgDone.heads (hm : MsgDone c w w') : HeadsKept w w' := by
  obtain ⟨cl, r, rel, w1, hc, hr, hrel, hw1, hend⟩ := hm
  rcases hend with ⟨_, rfl⟩ | ⟨_, hn⟩
  · exact .of_drop rfl rfl
  · refine HeadsKept.trans ?_ hn.heads
    rcases hw1 with ⟨_, rfl⟩ | ⟨_, rfl⟩
    · exact .refl _
    · exact (written_wroteTo hc lastChunk).heads

theorem BodyDone.heads (hb : BodyDone c w w') : HeadsKept w w' := by
  obtain ⟨cl, r, rel, cl1, w1, _, _, hw, hend⟩ := hb
  rcases hend with ⟨_, rfl⟩ | ⟨_, rfl⟩
  · exact hw.heads.trans (.of_clients rfl rfl)
  · exact hw.heads

theorem HdrPhase.heads {ends : Bool} {r : RelayId} (hp : HdrPhase ends r w w') :
    HeadsKept w w' := by
  obtain ⟨rel, rel1, cl, r1, data, hr, hk, hc, _, _, _, rfl⟩ := hp
  have h1 : HeadsKept w (heading w r rel1) := .of_clients rfl rfl
  exact h1.trans (written_wroteTo (w := heading w r rel1) hc data).heads

theorem Reported.heads {userData : Option RelayId} {frame : Frame}
    (hr : Reported w userData frame w') : HeadsKept w w' := by
  cases hr with
  | ignored => exact .refl w
  | phases hu hr ha h1 h2 =>
    rename_i r rel w1
    have hl1 : HeadsKept w w1 := by
      split_ifs at h1
      · exact h1.heads
      · exact h1 ▸ .refl w
    split_ifs at h2
    · obtain ⟨rel1, hr1, hd⟩ := h2
      have h3 : HeadsKept w1 (ending w1 r rel1) := .of_clients rfl rfl
      exact (hl1.trans h3).trans hd.heads
    · exact h2 ▸ hl1

theorem ShutRd.heads {s : StreamId} (hs : ShutRd s w w') : HeadsKept w w' := by
  have h1 : HeadsKept w (w.mapStream s ({ · with shutRd := true })) := .of_clients rfl rfl
  exact h1.trans (Sent.heads hs)

theorem Dropped.heads (hd : Dropped c w w') : HeadsKept w w' := by
  obtain ⟨cl, hc, ⟨_, rfl⟩ | ⟨r, rel, w1, w2, _, _, h1, h2, rfl⟩⟩ := hd
  · exact .of_drop rfl rfl
  · have h0 : HeadsKept w (w.log (.close r)) := .of_clients rfl rfl
    exact ((h0.trans h1.heads).trans h2.heads).trans (.of_drop rfl rfl)

theorem Resumed.heads {r : RelayId} (hr : Resumed r w w') : HeadsKept w w' := by
  obtain ⟨rel, w1, _, h1, h2⟩ := hr
  refine HeadsKept.trans ?_ h2.heads
  rcases h1 with ⟨rfl, _⟩ | h1
  · exact .refl _
  · have h0 : HeadsKept w (w.mapStream rel.streamId ({ · with recvLen := 0 })) := .of_clients rfl rfl
    exact h0.trans h1.heads

theorem heads_drained {out : DrainOut} (hc : w.clients c = some cl) (sends : List SendResult) :
    HeadsKept w ((w.setSends sends).setClient c (some (drainedClient cl out))) :=
  .of_update rfl rfl hc (.of_eq rfl rfl rfl)

theorem heads_afterDrain {out : DrainOut} (hc : w.clients c = some cl) (sends : List SendResult) :
    HeadsKept w ((w.setSends sends).setClient c (some (afterDrain cl out))) := by
  refine .of_update rfl rfl hc ?_
  unfold afterDrain
  split_ifs <;> exact .of_eq rfl rfl rfl

theorem WritableDone.heads (hd : WritableDone c w w') : HeadsKept w w' := by
  cases hd with
  | empty hc hq hr hres => exact hres.heads
  | error hc hq hout herr hdrop => exact (heads_drained hc _).trans hdrop.heads
  | full hc hq hout herr hlen hw => exact hw ▸ heads_afterDrain hc _
  | resumed hc hq hout herr hlen hr hres => exact (heads_afterDrain hc _).trans hres.heads

theorem Submits.heads {r : RelayId} {h : Header} {rel : Relay} (hs : Submits c cl r h rel w w') :
    HeadsKept w w' := by
  obtain ⟨w1, hs1, hs2⟩ := hs.sent
  have h0 : HeadsKept w (connecting w c cl r h) :=
    .of_update rfl rfl hs.client (.of_eq rfl rfl rfl)
  have h1 : HeadsKept (connecting w c cl r h) (submitted (connecting w c cl r h) r rel h) :=
    .of_clients (submitted_clients ..) (submitted_nextClient ..)
  exact ((h0.trans h1).trans hs1.heads).trans hs2.heads

theorem BodiesWritten.heads {r : RelayId} {bs : List BodyBuffer}
    (hb : BodiesWritten c r bs w w') : HeadsKept w w' := by
  induction hb with
  | nil => exact .refl _
  | @cons b bs w w1 w' h1 _ ih =>
    have h0 : HeadsKept w (w.log (.writeBody r c b.req b.data)) := .of_clients rfl rfl
    exact (h0.trans h1.heads).trans ih

theorem DropClients.heads {rs : List RelayId} (hd : DropClients rs w w') : HeadsKept w w' := by
  induction hd with
  | nil => exact .refl _
  | @cons _ _ w w1 _ h1 _ ih =>
    refine HeadsKept.trans ?_ ih
    cases h1 with
    | attached hr ha hc => exact .of_drop rfl rfl
    | detached hr ha => exact .of_clients rfl rfl

theorem ChunkDone.heads {s : StreamId} {st : Stream} {data : Bytes}
    (hd : ChunkDone w s st data w') : HeadsKept w w' := by
  cases hd with
  | ignored => exact .of_clients rfl rfl
  | @written r rel rel1 w1 w2 _ hu hr ha h1 hr1 h2 h3 =>
    refine HeadsKept.trans ?_ h3.heads
    have h0 : HeadsKept w (chunked w s r rel data) := .of_clients rfl rfl
    have hw1 : HeadsKept w w1 := h0.trans h1.heads
    split_ifs at h2
    · exact h2 ▸ hw1.trans (.of_clients rfl rfl)
    · exact h2 ▸ hw1

/-- **An event that is no callback of a parser** and does not bring a client leaves every client in
the request it is in. -/
theorem Handled.heads {e : Event} (hh : Handled w e w') (hpar : e.parses = none)
    (ha : e ≠ .accept) : HeadsKept w w' := by
  cases hh with
  | skip => exact .refl w
  | accept => exact absurd rfl ha
  | msgBegin => exact absurd hpar (Option.some_ne_none _)
  | reqHeader hc hk hs he => exact absurd (he.symm.trans hpar) (Option.some_ne_none _)
  | headersComplete => exact absurd hpar (Option.some_ne_none _)
  | bodyQueued => exact absurd hpar (Option.some_ne_none _)
  | bodyWritten => exact absurd hpar (Option.some_ne_none _)
  | messageComplete => exact absurd hpar (Option.some_ne_none _)
  | clientGone hd => exact hd.heads
  | writable hc hm hd => exact hd.heads
  | @timerConnected r rel _ _ _ _ _ _ hr ht hs h1 h2 =>
    have h0 : HeadsKept w (timed w r rel .connected) := .of_clients rfl rfl
    exact (h0.trans h1.heads).trans h2.heads
  | timerFailed hr ht hs hc => exact .of_drop rfl rfl
  | tunnelConnected ht => exact .of_clients rfl rfl
  | tunnelFailed ht hd =>
    have h0 : HeadsKept w (w.setTunnel .closed w.sSession) := .of_clients rfl rfl
    exact (h0.trans hd.heads).trans (.of_clients rfl rfl)
  | recvHeader ht hs hu hr hdr => exact .of_clients rfl rfl
  | frame ht hs hopen h1 h2 =>
    split_ifs at h2
    · exact h1.heads.trans h2.heads
    · exact h2 ▸ h1.heads
  | rst ht hs h1 h2 h3 =>
    refine HeadsKept.trans ?_ h2.heads
    cases h1 with
    | ignored => exact .refl _
    | dropped hu hr ha hc => exact .of_drop rfl rfl
  | recvData ht hs hopen hd => exact hd.heads
  | protocolError ht hs h1 h2 =>
    split_ifs at h2
    · exact h1.heads.trans h2.heads
    · exact h2 ▸ h1.heads
  | goaway ht hs hq =>
    have h0 : HeadsKept w w.setGoaway := .of_clients rfl rfl
    exact h0.trans hs.heads
  | connectionError ht => exact .of_clients rfl rfl
  | sessionSend ht hs => exact hs.heads

/-- **A callback of the parser of another client** does not touch the client `c`. -/
theorem Handled.clients_of_ne {e : Event} {c' : ClientId} (hh : Handled w e w')
    (hpar : e.parses = some c') (hne : c ≠ c') :
    w'.clients c = w.clients c ∧ w'.nextClient = w.nextClient := by
  cases hh with
  | skip => exact ⟨rfl, rfl⟩
  | msgBegin =>
    obtain rfl := Option.some.inj hpar
    exact ⟨Function.update_of_ne hne _ _, rfl⟩
  | reqHeader hc hk hs he =>
    obtain rfl := Option.some.inj (he.symm.trans hpar)
    exact ⟨Function.update_of_ne hne _ _, rfl⟩
  | headersComplete hc hp hd =>
    obtain rfl := Option.some.inj hpar
    cases hd <;> exact ⟨Function.update_of_ne hne _ _, rfl⟩
  | bodyQueued =>
    obtain rfl := Option.some.inj hpar
    exact ⟨Function.update_of_ne hne _ _, rfl⟩
  | bodyWritten hc hp hr hrel hst hs => exact ⟨congrFun hs.clients_eq c, hs.nextClient⟩
  | messageComplete hc hp hr hw =>
    obtain rfl := Option.some.inj hpar
    refine ⟨(congrFun hw.clients_eq c).trans (Function.update_of_ne hne _ _), ?_⟩
    exact hw.heads.nextClient
  | accept | clientGone | writable | timerConnected | timerFailed | tunnelConnected | tunnelFailed
  | recvHeader | frame | rst | recvData | protocolError | goaway | connectionError | sessionSend =>
    exact absurd hpar.symm (Option.some_ne_none _)

/-! ### The url of the request -/

/-- The fragment of the url that an event is for the parser of the client `c`. -/
def Event.urlFragment (c : ClientId) : Event → Option Bytes
  | .url c' data => if c' = c then some data else none
  | _ => none

/-- The fragments of the url that the parser of the client `c` hands over. -/
def urlFragments (c : ClientId) (is : List Input) : List Bytes :=
  is.filterMap fun i => i.event.urlFragment c

theorem urlFragments_cons (c : ClientId) (i : Input) (is : List Input) :
    urlFragments c (i :: is) = (i.event.urlFragment c).toList ++ urlFragments c is := by
  unfold urlFragments
  rw [List.filterMap_cons]
  cases i.event.urlFragment c <;> rfl

/-- The event is the end of the header block of the client `c`. -/
def Event.endsHead (c : ClientId) : Event → Bool
  | .headersComplete c' _ => c' = c
  | _ => false

/-- The client `c`, if it is still there, is in a header block, and the url of its header is `url`. -/
structure InHead (c : ClientId) (url : Option Bytes) (w : World) : Prop where
  lt : c < w.nextClient
  parser : ∀ cl, w.clients c = some cl → cl.parser = .head
  url : ∀ cl h, w.clients c = some cl → reqHeader cl = some h → h.url = url

/-- The url after a fragment, if there is one: `header_set_url` replaces what was there. -/
def urlAfterFragment (url fragment : Option Bytes) : Option Bytes := (fragment.map cstr).or url

variable {url : Option Bytes}

theorem headerAppendComplete_url {h h' : Header} (he : headerAppendComplete h = some h') :
    h'.url = h.url := by
  unfold headerAppendComplete at he
  split_ifs at he
  · split at he
    · obtain rfl := Option.some.inj he
      rfl
    · exact absurd he (by simp)
  · obtain rfl := Option.some.inj he
    rfl

theorem headerAppendField_url {h h' : Header} {field : Bytes}
    (he : headerAppendField h field = some h') : h'.url = h.url := by
  unfold headerAppendField at he
  split_ifs at he
  · simp only [Option.bind_eq_bind, Option.bind_eq_some_iff, Option.pure_def,
      Option.some.injEq] at he
    obtain ⟨h1, h1e, rfl⟩ := he
    have hurl := headerAppendComplete_url h1e
    exact hurl
  · obtain rfl := Option.some.inj he
    rfl

theorem InHead.of_heads (h : InHead c url w) (hk : HeadsKept w w') : InHead c url w' := by
  refine ⟨by rw [hk.nextClient]; exact h.lt, ?_, ?_⟩
  · intro cl' hc'
    obtain ⟨cl, hc, hkept⟩ := hk.client c cl' hc'
    exact hkept.parser.trans (h.parser cl hc)
  · intro cl' hdr hc' hh
    obtain ⟨cl, hc, hkept⟩ := hk.client c cl' hc'
    rcases hkept.header with hn | he
    · exact absurd (hn.symm.trans hh) (Option.some_ne_none _).symm
    · exact h.url cl hdr hc (he ▸ hh)

/-- A callback that the parser cannot make in a header block. -/
theorem InHead.skip (h : InHead c url w) {possible : Client → Bool} {f : SysM Unit}
    (hpos : ∀ cl : Client, cl.parser = .head → possible cl = false) :
    wp (onClient c possible f) (fun _ => InHead c url) (fun _ _ => True) w := by
  simp only [onClient, wp_bind, wp_get]
  cases hc : w.clients c with
  | none => exact h
  | some cl =>
    simp only [hpos cl (h.parser cl hc), wp_pure, Bool.false_eq_true, if_false]
    exact h

/-- A callback that changes the header. -/
theorem InHead.update (h : InHead c url w) {possible : Client → Bool}
    {f : Header → Option Header} {url' : Option Bytes}
    (hpos : ∀ cl : Client, cl.parser = .head → possible cl = true)
    (hf : ∀ hdr hdr', hdr.url = url → f hdr = some hdr' → hdr'.url = url') :
    wp (onClient c possible (updateReqHeader c f)) (fun _ => InHead c url') (fun _ _ => True) w := by
  simp only [onClient, wp_bind, wp_get]
  cases hc : w.clients c with
  | none => exact ⟨h.lt, fun cl hcl => absurd (hc.symm.trans hcl) (Option.some_ne_none _).symm,
      fun cl _ hcl => absurd (hc.symm.trans hcl) (Option.some_ne_none _).symm⟩
  | some cl =>
    simp only [hpos cl (h.parser cl hc), if_true, updateReqHeader, wp_bind, wp_getClient, hc]
    cases hh : reqHeader cl with
    | none => trivial
    | some hdr =>
      dsimp only
      cases hfh : f hdr with
      | none => trivial
      | some hdr' =>
        show InHead c url' (w.setClient c (some (setReqHeader cl hdr')))
        have hself : (w.setClient c (some (setReqHeader cl hdr'))).clients c =
            some (setReqHeader cl hdr') := Function.update_self ..
        refine ⟨h.lt, ?_, ?_⟩
        · intro cl' hc'
          obtain rfl := Option.some.inj (hself.symm.trans hc')
          rw [← h.parser cl hc]
          unfold setReqHeader
          split_ifs <;> rfl
        · intro cl' hdr1 hc' hh'
          obtain rfl := Option.some.inj (hself.symm.trans hc')
          rw [reqHeader_setReqHeader] at hh'
          obtain rfl := Option.some.inj hh'
          exact hf hdr hdr' (h.url cl hdr hc hh) hfh

/-- One event, the end of the header block apart. -/
theorem InHead.afterInput {i : Input} (h : InHead c url w) (hno : i.event.endsHead c = false) :
    wp (step i) (fun _ => InHead c (urlAfterFragment url (i.event.urlFragment c)))
      (fun _ _ => True) w := by
  obtain ⟨event, sends, pulls⟩ := i
  have h0 : InHead c url (prepared w ⟨event, sends, pulls⟩) := ⟨h.lt, h.parser, h.url⟩
  by_cases hpar : event.parses = some c
  · -- the callbacks of this parser
    simp only [step, wp_bind, wp_modify]
    cases event with
    | msgBegin c' =>
      obtain rfl := Option.some.inj hpar
      exact h0.skip fun cl hp => by simp [hp]
    | url c' data =>
      obtain rfl := Option.some.inj hpar
      refine h0.update (fun cl hp => by simp [hp]) ?_
      rintro hdr hdr' _ ⟨rfl⟩
      simp only [Event.urlFragment, if_true, urlAfterFragment, Option.map_some, Option.some_or]
      rfl
    | headerField c' data =>
      obtain rfl := Option.some.inj hpar
      refine h0.update (fun cl hp => by simp [hp]) ?_
      intro hdr hdr' hu hf
      exact (headerAppendField_url hf).trans hu
    | headerValue c' data =>
      obtain rfl := Option.some.inj hpar
      refine h0.update (fun cl hp => by simp [hp]) ?_
      rintro hdr hdr' hu ⟨rfl⟩
      exact hu
    | headersComplete c' method =>
      obtain rfl := Option.some.inj hpar
      simp [Event.endsHead] at hno
    | body c' data =>
      obtain rfl := Option.some.inj hpar
      exact h0.skip fun cl hp => by simp [hp]
    | messageComplete c' =>
      obtain rfl := Option.some.inj hpar
      exact h0.skip fun cl hp => by simp [hp]
    | _ => exact absurd hpar.symm (Option.some_ne_none _)
  · have hfrag : event.urlFragment c = none := by
      cases event with
      | url c' data => exact if_neg fun he => hpar (congrArg some he)
      | _ => rfl
    rw [show (⟨event, sends, pulls⟩ : Input).event.urlFragment c = none from hfrag]
    refine step_spec _ (fun w' hh => ?_) fun _ _ _ => trivial
    cases he : event.parses with
    | some c' =>
      have hne : c ≠ c' := fun hcc => hpar (hcc ▸ he)
      obtain ⟨hcl, hnext⟩ := hh.clients_of_ne he hne
      refine ⟨hnext ▸ h0.lt, fun cl hc => ?_, fun cl hdr hc => ?_⟩
      · exact h0.parser cl (hcl ▸ hc)
      · exact h0.url cl hdr (hcl ▸ hc)
    | none =>
      by_cases hacc : event = .accept
      · subst hacc
        cases hh with
        | skip => exact h0
        | accept =>
          -- the new client gets an identity that was not used before
          have hne : c ≠ w.nextClient := (show c < w.nextClient from h.lt).ne
          have hcl : ((prepared w ⟨.accept, sends, pulls⟩).addClient
              { file := epFileDetect epFileCreate EP_READ (30 * 1000) }).clients c = w.clients c :=
            Function.update_of_ne hne _ _
          refine ⟨Nat.lt_succ_of_lt h.lt, fun cl hc => ?_, fun cl hdr hc => ?_⟩
          · exact h.parser cl (hcl ▸ hc)
          · exact h.url cl hdr (hcl ▸ hc)
        | reqHeader hc hk hs hp => exact absurd hp.symm (Option.some_ne_none _)
      · exact h0.of_heads (hh.heads he hacc)

/-- Any events, the end of the header block apart. -/
theorem InHead.afterRun {is : List Input} (h : InHead c url w)
    (hno : ∀ i ∈ is, i.event.endsHead c = false) :
    wp (run step is)
      (fun _ => InHead c ((urlFragments c is).foldl (fun url f => urlAfterFragment url (some f)) url))
      (fun _ _ => True) w := by
  induction is generalizing w url with
  | nil =>
    rw [Machine.run]
    exact h
  | cons i is ih =>
    rw [Machine.run, wp_bind]
    refine wp_mono (h.afterInput (hno i List.mem_cons_self)) (fun _ w1 h1 => ?_) fun _ _ _ => trivial
    refine wp_mono (ih h1 fun j hj => hno j (List.mem_cons_of_mem i hj)) ?_ fun _ _ => id
    intro _ w2 h2
    rw [urlFragments_cons]
    cases hf : i.event.urlFragment c with
    | none =>
      rw [hf] at h2
      exact h2
    | some f =>
      rw [hf] at h2
      exact h2

/-- The url after some fragments is the last of them. -/
theorem foldl_urlAfterFragment (fs : List Bytes) (f : Bytes) (url : Option Bytes) :
    (fs ++ [f]).foldl (fun url f => urlAfterFragment url (some f)) url = some (cstr f) := by
  rw [List.foldl_append]
  rfl

/-- The last fragment is the whole url iff it is the only one. -/
theorem cstr_eq_flatten_iff {fs : List Bytes} {f : Bytes} (hne : ∀ g ∈ fs, g ≠ []) :
    cstr f = (fs ++ [f]).flatten ↔ fs = [] ∧ NulFree f := by
  rw [List.flatten_append, List.flatten_cons, List.flatten_nil, List.append_nil]
  constructor
  · intro he
    have hlen : (cstr f).length = fs.flatten.length + f.length := by
      rw [he, List.length_append]
    have hle : (cstr f).length ≤ f.length := (List.takeWhile_sublist _).length_le
    have hfs : fs = [] := by
      cases fs with
      | nil => rfl
      | cons g rest =>
        have hg : g.length ≠ 0 := fun h0 =>
          hne g List.mem_cons_self (List.eq_nil_of_length_eq_zero h0)
        rw [List.flatten_cons, List.length_append] at hlen
        omega
    refine ⟨hfs, ?_⟩
    rw [hfs, List.flatten_nil, List.nil_append] at he
    intro x hx
    rw [← he, cstr] at hx
    exact of_decide_eq_true (List.mem_takeWhile_imp (p := fun x => decide (x ≠ 0)) hx)
  · rintro ⟨rfl, hnul⟩
    rw [List.flatten_nil, List.nil_append, cstr_of_nulFree hnul]

/-- After the fragments of a url the header has the whole url iff there was one fragment. -/
theorem InHead.url_eq_flatten_iff {is : List Input} (h : InHead c none w)
    (hno : ∀ i ∈ is, i.event.endsHead c = false) (hne : urlFragments c is ≠ [])
    (hcut : ∀ f ∈ urlFragments c is, f ≠ []) :
    wp (run step is) (fun _ w' => ∀ cl hdr, w'.clients c = some cl → reqHeader cl = some hdr →
        (hdr.url = some (urlFragments c is).flatten ↔
          (urlFragments c is).length = 1 ∧ NulFree (urlFragments c is).flatten))
      (fun _ _ => True) w := by
  refine wp_mono (h.afterRun hno) ?_ fun _ _ => id
  intro _ w' h' cl hdr hc hh
  have hurl := h'.url cl hdr hc hh
  generalize urlFragments c is = fs at hne hcut hurl
  -- the last fragment is what `header_set_url` has left
  obtain ⟨fs, f, rfl⟩ : ∃ fs' f, fs = fs' ++ [f] :=
    ⟨fs.dropLast, fs.getLast hne, (List.dropLast_concat_getLast hne).symm⟩
  rw [hurl, foldl_urlAfterFragment, Option.some.injEq,
    cstr_eq_flatten_iff fun g hg => hcut g (List.mem_append_left _ hg)]
  constructor
  · rintro ⟨rfl, hnul⟩
    refine ⟨rfl, ?_⟩
    rwa [List.nil_append, List.flatten_cons, List.flatten_nil, List.append_nil]
  · rintro ⟨hlen, hnul⟩
    rw [List.length_append, List.length_singleton] at hlen
    have hfs : fs = [] := List.eq_nil_of_length_eq_zero (by omega)
    refine ⟨hfs, ?_⟩
    rwa [hfs, List.nil_append, List.flatten_cons, List.flatten_nil, List.append_nil] at hnul

/-- The client `c` is in a header block, and no url has been set in its header. -/
def awaitsUrl (w : World) (c : ClientId) : Bool :=
  (w.clients c).any fun cl => cl.parser = .head && (reqHeader cl).all (·.url.isNone)

theorem Linked.inHead (h : Linked w) (ha : awaitsUrl w c = true) : InHead c none w := by
  unfold awaitsUrl at ha
  rw [Option.any_eq_true] at ha
  obtain ⟨cl, hc, hcl⟩ := ha
  rw [Bool.and_eq_true, decide_eq_true_eq] at hcl
  refine ⟨h.client_lt c cl hc, fun cl' hc' => ?_, fun cl' hdr hc' hh => ?_⟩
  · obtain rfl := Option.some.inj (hc.symm.trans hc')
    exact hcl.1
  · obtain rfl := Option.some.inj (hc.symm.trans hc')
    have hnone := hcl.2
    rw [hh, Option.all_some, Option.isNone_iff_eq_none] at hnone
    exact hnone

/-- **The url of a request is the concatenation of its fragments iff there is one fragment** (without
a NUL), whatever the state in which the header block is begun and whatever happens between the
fragments. -/
theorem wp_run_url (pre is : List Input) (c : ClientId)
    (hno : ∀ i ∈ is, i.event.endsHead c = false) (hne : urlFragments c is ≠ [])
    (hcut : ∀ f ∈ urlFragments c is, f ≠ []) :
    wp (run step pre)
      (fun _ w => awaitsUrl w c = true → wp (run step is)
        (fun _ w' => ∀ cl hdr, w'.clients c = some cl → reqHeader cl = some hdr →
          (hdr.url = some (urlFragments c is).flatten ↔
            (urlFragments c is).length = 1 ∧ NulFree (urlFragments c is).flatten))
        (fun _ _ => True) w)
      (fun _ _ => True) World.init :=
  wp_mono (linked_run pre) (fun _ _ h ha => (h.inHead ha).url_eq_flatten_iff hno hne hcut)
    fun _ _ => id

/-- The url of a pipelined request in one fragment, with the response to the first request ending
after it. -/
theorem wp_run_url_pipelined :
    wp (run step (inputs (opening ++ getRequest 0 ++ [.timer 0, .msgBegin 0])))
      (fun _ w => awaitsUrl w 0 = true →
        wp (run step (inputs (.url 0 (bytes "/b") :: emptyResponse 1)))
        (fun _ w' => ∀ cl hdr, w'.clients 0 = some cl → reqHeader cl = some hdr →
          (hdr.url = some (bytes "/b") ↔
            [bytes "/b"].length = 1 ∧ NulFree [bytes "/b"].flatten))
        (fun _ _ => True) w)
      (fun _ _ => True) World.init :=
  wp_run_url _ (inputs (.url 0 (bytes "/b") :: emptyResponse 1)) 0 (by decide) (by decide) (by decide)

/-- In general the url is not what the parser has delivered: `header_set_url` keeps the last of two
fragments. -/
theorem not_url_eq_flatten :
    ¬ ∀ (pre is : List Input) (c : ClientId), (∀ i ∈ is, i.event.endsHead c = false) →
      urlFragments c is ≠ [] → (∀ f ∈ urlFragments c is, f ≠ []) →
      wp (run step pre)
        (fun _ w => awaitsUrl w c = true → wp (run step is)
          (fun _ w' => ∀ cl hdr, w'.clients c = some cl → reqHeader cl = some hdr →
            hdr.url = some (urlFragments c is).flatten)
          (fun _ _ => True) w)
        (fun _ _ => True) World.init := by
  intro h
  have h1 := h (inputs (opening ++ [Event.msgBegin 0]))
    (inputs [.url 0 (bytes "/inde"), .url 0 (bytes "x.html")]) 0 (by decide) (by decide) (by decide)
  have h2 : ¬ wp (run step (inputs (opening ++ [Event.msgBegin 0])))
      (fun _ w => awaitsUrl w 0 = true →
        wp (run step (inputs [.url 0 (bytes "/inde"), .url 0 (bytes "x.html")]))
          (fun _ w' => (w'.clients 0).all fun cl => (reqHeader cl).all fun hdr =>
            hdr.url = some (bytes "/index.html"))
          (fun _ _ => True) w)
      (fun _ _ => True) World.init := by
    decide +kernel
  refine h2 (wp_mono h1 (fun _ w hw ha => ?_) fun _ _ => id)
  refine wp_mono (hw ha) (fun _ w' hw' => ?_) fun _ _ => id
  rw [Option.all_eq_true]
  intro cl hc
  rw [Option.all_eq_true]
  intro hdr hh
  exact decide_eq_true (hw' cl hdr hc hh)

end H2ClientProxy
