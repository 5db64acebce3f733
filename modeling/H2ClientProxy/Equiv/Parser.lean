import H2ClientProxy.Equiv.Client

/-!
# The callbacks of the request parser

One specification for each parser callback of `client.c`.  The callbacks work on the pending header
if there is one, and on the current header otherwise (`reqHeader`); none of them changes which
request a header belongs to.
-/

namespace H2ClientProxy

open Wp SendQueue

variable {w w' : World} {c : ClientId} {cl : Client}

/-! ### `client_msg_begin` -/

/-- What `client_msg_begin` makes of a client: the new header is the pending one while a relay is at
work. -/
inductive Begun (cl : Client) : Client → Prop
  | pending (hr : cl.relay.isSome) (hh : cl.requestHeader.isSome) :
      Begun cl { cl with
        parser := .head, reqNo := cl.reqNo + 1
        pendingRequestHeader := some (headerNew (cl.reqNo + 1)) }
  | current (hr : cl.relay = none) (hh : cl.requestHeader = none) :
      Begun cl { cl with
        parser := .head, reqNo := cl.reqNo + 1
        requestHeader := some (headerNew (cl.reqNo + 1)) }

theorem clientMsgBegin_spec (hc : w.clients c = some cl) :
    wp (clientMsgBegin c) (fun _ w' => ∃ cl', Begun cl cl' ∧ w' = w.setClient c (some cl'))
      (fun e w' => w' = w ∧ e = .assertFailed) w := by
  simp only [clientMsgBegin, wp_bind, wp_getClient, hc, wp_ite, wp_throw, wp_putClient]
  split_ifs with hr hh hh
  · exact ⟨trivial, trivial⟩
  · rw [← Option.not_isSome, Bool.not_eq_true', Bool.not_eq_false] at hh
    exact ⟨_, .pending hr hh, rfl⟩
  · exact ⟨trivial, trivial⟩
  · rw [Option.not_isSome_iff_eq_none] at hr hh
    exact ⟨_, .current hr hh, rfl⟩

/-! ### The header that is being parsed -/

theorem reqHeader_setReqHeader (cl : Client) (h : Header) :
    reqHeader (setReqHeader cl h) = some h := by
  unfold setReqHeader
  split_ifs with hp
  · rfl
  · rw [Option.not_isSome_iff_eq_none] at hp
    simp only [reqHeader, hp]

/-- A change of that header that keeps its request keeps the control state of the client. -/
theorem setReqHeader_ctl {h h' : Header} (hh : reqHeader cl = some h) (hid : h'.id = h.id) :
    CtlKept cl (setReqHeader cl h') := by
  unfold reqHeader at hh
  unfold setReqHeader
  split_ifs with hp
  · obtain ⟨p, hp⟩ := Option.isSome_iff_exists.mp hp
    simp only [hp, Option.some.injEq] at hh
    refine ⟨rfl, rfl, rfl, ?_, rfl, rfl, rfl⟩
    rw [hp, hh, Option.map_some, Option.map_some, hid]
  · rw [Option.not_isSome_iff_eq_none] at hp
    simp only [hp] at hh
    refine ⟨rfl, rfl, ?_, rfl, rfl, rfl, rfl⟩
    rw [hh, Option.map_some, Option.map_some, hid]

/-- The send side of a client. -/
structure SendSideKept (cl cl' : Client) : Prop where
  file : cl'.file = cl.file
  queue : cl'.listResponseWriteBuffer = cl.listResponseWriteBuffer
  pendingWrite : cl'.pendingWrite = cl.pendingWrite
  written : cl'.written = cl.written
  accepted : cl'.accepted = cl.accepted

theorem setReqHeader_send (h : Header) : SendSideKept cl (setReqHeader cl h) := by
  unfold setReqHeader
  split_ifs <;> exact ⟨rfl, rfl, rfl, rfl, rfl⟩

/-- The faults of a parser callback that finds no header or fails an `assert`. -/
def ParserFault (e : Fault) : Prop := e = .nullHeader ∨ e = .assertFailed

theorem updateReqHeader_spec {f : Header → Option Header}
    (hf : ∀ h h', f h = some h' → h'.id = h.id) (hc : w.clients c = some cl) :
    wp (updateReqHeader c f)
      (fun _ w' => ∃ cl', CtlKept cl cl' ∧ SendSideKept cl cl' ∧ w' = w.setClient c (some cl'))
      (fun e w' => w' = w ∧ ParserFault e) w := by
  simp only [updateReqHeader, wp_bind, wp_getClient, hc]
  cases hh : reqHeader cl with
  | none => exact ⟨rfl, Or.inl rfl⟩
  | some h =>
    dsimp only
    cases hfh : f h with
    | none => exact ⟨rfl, Or.inr rfl⟩
    | some h' =>
      exact ⟨_, setReqHeader_ctl hh (hf h h' hfh), setReqHeader_send h', rfl⟩

theorem headerAppendComplete_id {h h' : Header} (he : headerAppendComplete h = some h') :
    h'.id = h.id := by
  unfold headerAppendComplete at he
  split_ifs at he
  · split at he
    · obtain rfl := Option.some.inj he
      rfl
    · exact absurd he (by simp)
  · obtain rfl := Option.some.inj he
    rfl

theorem headerAppendField_id {h h' : Header} {field : Bytes}
    (he : headerAppendField h field = some h') : h'.id = h.id := by
  unfold headerAppendField at he
  split_ifs at he
  · simp only [Option.bind_eq_bind, Option.bind_eq_some_iff, Option.pure_def,
      Option.some.injEq] at he
    obtain ⟨h1, h1e, rfl⟩ := he
    have hid := headerAppendComplete_id h1e
    exact hid
  · obtain rfl := Option.some.inj he
    rfl

/-! ### `client_headers_completecb` -/

/-- The client when its header block is complete, before a relay is created for it. -/
def completed (cl : Client) (h : Header) : Client :=
  { setReqHeader cl h with
    file := epFileDetect cl.file 0 (-1), relaySys := true, parser := .body }

/-- What `client_headers_completecb` leaves: a relay is created unless the request is pending. -/
inductive HeadersDone (c : ClientId) (cl : Client) (w : World) : World → Prop
  | pending {h h' : Header} (hh : reqHeader cl = some h) (hid : h'.id = h.id)
      (hp : cl.pendingRequestHeader.isSome) :
      HeadersDone c cl w
        ((w.log (.headersComplete c h'.id)).setClient c (some (completed cl h')))
  | create {h h' : Header} (hh : reqHeader cl = some h) (hid : h'.id = h.id)
      (hp : cl.pendingRequestHeader = none) :
      HeadersDone c cl w
        ((((w.log (.headersComplete c h'.id)).addRelay { session := w.sSession, args := c }).log
          (.create w.nextRelay c h'.id)).setClient c
            (some { completed cl h' with relay := some w.nextRelay }))

theorem completed_pending_isNone (h : Header) :
    (completed cl h).pendingRequestHeader.isNone = cl.pendingRequestHeader.isNone := by
  unfold completed setReqHeader
  split_ifs with hp
  · rw [← Option.not_isSome, ← Option.not_isSome, hp]
    rfl
  · rfl

theorem clientHeadersCompletecb_spec (hc : w.clients c = some cl) (method : Bytes) :
    wp (clientHeadersCompletecb c method) (fun _ => HeadersDone c cl w)
      (fun e w' => ParserFault e ∧ (w'.trace = w.trace ∨
        ∃ h, reqHeader cl = some h ∧ w'.trace = w.trace ++ [Obs.headersComplete c h.id])) w := by
  simp only [clientHeadersCompletecb, wp_bind, wp_getClient, hc]
  cases hh : reqHeader cl with
  | none => exact ⟨Or.inl rfl, Or.inl rfl⟩
  | some h =>
    dsimp only
    cases hcomp : headerAppendComplete (headerSetMethod h method) with
    | none => exact ⟨Or.inr rfl, Or.inl rfl⟩
    | some h' =>
      have hid : h'.id = (headerSetMethod h method).id := headerAppendComplete_id hcomp
      change h'.id = h.id at hid
      have hpend : (completed cl h').pendingRequestHeader.isNone = _ := completed_pending_isNone h'
      simp only [wp_bind, wp_note, wp_putClient, wp_ite, wp_pure]
      unfold completed at hpend
      rw [hpend]
      split_ifs with hp
      · rw [Option.isNone_iff_eq_none] at hp
        simp only [createRelay, wp_bind, wp_ite, wp_throw, relayCreate, wp_get, wp_modify, wp_pure,
          wp_note]
        split_ifs
        · exact ⟨Or.inl rfl, Or.inr ⟨h, rfl, by rw [← hid]; rfl⟩⟩
        · convert HeadersDone.create hh hid hp using 1
          simp only [World.setClient, World.addRelay, World.log, Function.update_idem, completed]
      · rw [← Option.not_isSome, Bool.not_eq_true', Bool.not_eq_false] at hp
        exact .pending hh hid hp

end H2ClientProxy
