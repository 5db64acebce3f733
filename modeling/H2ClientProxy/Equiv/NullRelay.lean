import H2ClientProxy.Equiv.Timely

/-!
# When `client->relay` is used although it is `NULL`

`client_handle_relay_msg_complete` sets `client->relay` to `NULL` when a response ends and no request
is pending.  Three kinds of handlers use it afterwards: the body and completion callbacks of the
parser while the rest of the request comes in, `client_writecb` while response bytes are queued, and
the relay callback while the stream of the response is still open.

* `Fault.isNull`: the property; no run ends in a call through a relay that is `NULL`;
* `AnswersWhole`: the condition; a frame that makes a client leave its relay carries `END_STREAM`, and
  then either the next request is ready, or the present one has been read to its end and everything
  has been written out;
* `Faced`: the invariant; wherever one of the three will use the relay, there is one;
* `wp_run_not_null`: under the condition no run uses a relay that is `NULL`.
-/

namespace H2ClientProxy

open Wp Machine SendQueue

variable {X : StreamId → Prop} {w w' : World} {r : RelayId} {c : ClientId}

/-! ### The property -/

/-- A call through `client->relay_sys` with a `client->relay` or a `client->relay_sys` that is
`NULL`. -/
def Fault.isNull : Fault → Bool
  | .nullRelay _ | .nullRelaySys => true
  | _ => false

/-! ### The condition -/

/-- A frame that makes a client leave its relay carries `END_STREAM`.  With a pending request, the
header block of that one is complete; without, the parser is between two requests, and after the
writes of this frame the client does not wait for a writable event. -/
def AnswersWhole (w : World) (e : Event) : Bool :=
  leaves (fun frame cl cur => frame.endStream &&
    if cl.pendingRequestHeader.isSome then cl.parser ≠ .head
    else cl.parser = .idle &&
      !wantsWrite (answered cl w.sends frame cur.responseHeader).file.mask) w e

theorem AnswersWhole.headersWhole {e : Event} (hg : AnswersWhole w e = true) :
    HeadersWhole w e = true := by
  refine leaves_mono hg fun frame cl cur h => ?_
  rw [Bool.and_eq_true] at h
  cases hp : cl.pendingRequestHeader with
  | none => exact Bool.or_true _
  | some hd =>
    have h2 := h.2
    rw [hp, Option.isSome_some, if_pos rfl] at h2
    rw [h2]
    rfl

/-! ### The invariant -/

/-- A client has a relay while the parser is in the body of its request and while it waits for a
writable event; an open stream whose relay is attached belongs to the current relay of its client,
except for the streams in `X`. -/
structure Faced (X : StreamId → Prop) (w : World) : Prop where
  body : ∀ c cl, w.clients c = some cl → cl.parser = .body → cl.relay ≠ none
  mask : ∀ c cl, w.clients c = some cl → wantsWrite cl.file.mask = true → cl.relay ≠ none
  sys : ∀ c cl, w.clients c = some cl → cl.relay ≠ none → cl.relaySys = true
  stream : ∀ s st r rel cl, ¬ X s → w.streams s = some st → st.shutRd = false →
    st.userData = some r → w.relays r = some rel → rel.isAttached = true →
    w.clients rel.args = some cl → cl.relay = some r
  own : ∀ s st r rel, w.streams s = some st → st.userData = some r → w.relays r = some rel →
    rel.streamId = s

theorem faced_init : Faced X World.init := by
  constructor <;> simp [World.init]

theorem Faced.mono {X' : StreamId → Prop} (h : Faced X w) (hX : ∀ s, X s → X' s) : Faced X' w :=
  { h with stream := fun s st r rel cl hs => h.stream s st r rel cl fun hx => hs (hX s hx) }

/-- **A calm change keeps the invariant.** -/
theorem Faced.calm (h : Faced X w) (hk : Calm w w') : Faced X w' where
  body := by
    intro c cl' hc' hp
    obtain ⟨cl, hc, hcl⟩ := hk.clients c cl' hc'
    rw [hcl.relay]
    rcases hcl.parser with he | ⟨_, he⟩
    · exact h.body c cl hc (he.symm.trans hp)
    · exact absurd (he.symm.trans hp) (by simp)
  mask := by
    intro c cl' hc' hm
    obtain ⟨cl, hc, hcl⟩ := hk.clients c cl' hc'
    rw [hcl.relay]
    rcases hcl.mask hm with hm | hr
    · exact h.mask c cl hc hm
    · exact hr
  sys := by
    intro c cl' hc' hr
    obtain ⟨cl, hc, hcl⟩ := hk.clients c cl' hc'
    rw [hcl.relay] at hr
    rw [hcl.relaySys]
    exact h.sys c cl hc hr
  stream := by
    intro s st' r rel' cl' hX hs' hsh hu hr' ha hc'
    obtain ⟨st, hs, hst⟩ := hk.streams s st' hs'
    obtain ⟨rel, hr, hrel⟩ := hk.relays r rel' hr'
    obtain ⟨cl, hc, hcl⟩ := hk.clients _ cl' hc'
    rw [hrel.args] at hc
    rw [hcl.relay]
    exact h.stream s st r rel cl hX hs (hst.shutRd hsh) (hst.userData r hu) hr
      (hrel.isAttached ha) hc
  own := by
    intro s st' r rel' hs' hu hr'
    obtain ⟨st, hs, hst⟩ := hk.streams s st' hs'
    obtain ⟨rel, hr, hrel⟩ := hk.relays r rel' hr'
    rw [hrel.streamId]
    exact h.own s st r rel hs (hst.userData r hu) hr

/-- After the end of the stream `s` nothing more is reported on it. -/
theorem Faced.shutRd {s : StreamId} (h : Faced (· = s) w) (hs : ShutRd s w w') :
    Faced (fun _ => False) w' := by
  have h0 : Faced (fun _ => False) (w.mapStream s ({ · with shutRd := true })) := by
    have hk : Calm w (w.mapStream s ({ · with shutRd := true })) :=
      calm_mapStream _ _ fun _ => ⟨fun _ => id, fun h => absurd h (by simp)⟩
    refine { h.calm hk with stream := ?_ }
    intro s' st' r rel cl _ hs' hsh
    refine (h.calm hk).stream s' st' r rel cl ?_ hs' hsh
    rintro rfl
    obtain ⟨st, _, rfl⟩ := World.mapStream_eq_some hs'
    rw [if_pos rfl] at hsh
    exact absurd hsh (by simp)
  exact h0.calm (Sent.calm hs)

/-! ### The other turns -/

/-- A client changes; the open streams of its relays must belong to its current one. -/
theorem Faced.setClient {cl' : Client} (h : Faced X w) (hb : cl'.parser = .body → cl'.relay ≠ none)
    (hm : wantsWrite cl'.file.mask = true → cl'.relay ≠ none)
    (hsys : cl'.relay ≠ none → cl'.relaySys = true)
    (hst : ∀ s st r rel, ¬ X s → w.streams s = some st → st.shutRd = false →
      st.userData = some r → w.relays r = some rel → rel.isAttached = true → rel.args = c →
      cl'.relay = some r) : Faced X (w.setClient c (some cl')) := by
  have hof : ∀ {P : Client → Prop}, P cl' → (∀ c1 cl1, w.clients c1 = some cl1 → P cl1) →
      ∀ c1 cl1, (w.setClient c (some cl')).clients c1 = some cl1 → P cl1 := by
    intro P h1 h2 c1 cl1 hc1
    rw [World.setClient_clients, Function.update_apply] at hc1
    split_ifs at hc1 with he
    · rw [← Option.some.inj hc1]
      exact h1
    · exact h2 c1 cl1 hc1
  constructor
  · exact hof (P := fun cl1 => _ → cl1.relay ≠ none) hb h.body
  · exact hof (P := fun cl1 => _ → cl1.relay ≠ none) hm h.mask
  · exact hof (P := fun cl1 => _ → cl1.relaySys = true) hsys h.sys
  · -- `stream`
    intro s st r rel cl1 hX hs hsh hu hr ha hc1
    rw [World.setClient_clients, Function.update_apply] at hc1
    split_ifs at hc1 with he
    · rw [← Option.some.inj hc1]
      exact hst s st r rel hX hs hsh hu hr ha he
    · exact h.stream s st r rel cl1 hX hs hsh hu hr ha hc1
  · exact h.own

/-- A relay that is new has no stream. -/
theorem Faced.addRelay {rel : Relay} (h : Faced X w) (hl : Linked w) :
    Faced X (w.addRelay rel) := by
  have hof : ∀ s st r rel1, w.streams s = some st → st.userData = some r →
      (w.addRelay rel).relays r = some rel1 → w.relays r = some rel1 := by
    intro s st r rel1 hs hu hr
    have hlt : r < w.nextRelay := (hl.stream_lt s st hs).2.2 r hu
    rw [World.addRelay_relays, Function.update_of_ne hlt.ne] at hr
    exact hr
  constructor
  · exact h.body
  · exact h.mask
  · exact h.sys
  · exact fun s st r rel1 cl hX hs hsh hu hr ha hc =>
      h.stream s st r rel1 cl hX hs hsh hu (hof s st r rel1 hs hu hr) ha hc
  · exact fun s st r rel1 hs hu hr => h.own s st r rel1 hs hu (hof s st r rel1 hs hu hr)

theorem Faced.begun {cl cl' : Client} (h : Faced X w) (hc : w.clients c = some cl)
    (hb : Begun cl cl') : Faced X (w.setClient c (some cl')) := by
  have hst : ∀ s st r rel, ¬ X s → w.streams s = some st → st.shutRd = false →
      st.userData = some r → w.relays r = some rel → rel.isAttached = true → rel.args = c →
      cl.relay = some r := by
    rintro s st r rel hX hs hsh hu hr ha rfl
    exact h.stream s st r rel cl hX hs hsh hu hr ha hc
  cases hb with
  | pending hr hh => exact h.setClient (by simp) (h.mask c cl hc) (h.sys c cl hc) hst
  | current hr hh => exact h.setClient (by simp) (h.mask c cl hc) (h.sys c cl hc) hst

theorem Faced.headersDone {cl : Client} (h : Faced (fun _ => False) w) (hl : Linked w)
    (ht : Timely w) (hc : w.clients c = some cl) (hp : cl.parser = .head)
    (hd : HeadersDone c cl w w') : Faced (fun _ => False) w' := by
  cases hd with
  | @pending hd hd' hh hid hpend =>
    have hk : CtlKept cl (setReqHeader cl hd') := setReqHeader_ctl hh hid
    have hrel : cl.relay ≠ none := by
      refine ht.pending c cl hc ?_
      rw [Ne, Option.map_eq_none_iff]
      exact Option.isSome_iff_ne_none.mp hpend
    have hrel' : (completed cl hd').relay ≠ none := by
      show (setReqHeader cl hd').relay ≠ none
      rw [hk.relay]
      exact hrel
    have h0 : Faced (fun _ => False) (w.log (.headersComplete c hd'.id)) := { h with }
    refine h0.setClient (fun _ => hrel') (fun _ => hrel') (fun _ => rfl) ?_
    rintro s st r rel hX hs hsh hu hr ha rfl
    exact hk.relay.trans (h.stream s st r rel cl hX hs hsh hu hr ha hc)
  | @create hd hd' hh hid hpend =>
    have hnone : cl.relay = none := ht.head c cl hc hp (by rw [hpend]; rfl)
    have h0 : Faced (fun _ => False) (w.log (.headersComplete c hd'.id)) := { h with }
    have h1 : Faced (fun _ => False) ((w.log (.headersComplete c hd'.id)).addRelay
        { session := w.sSession, args := c }) := h0.addRelay (hl.log _)
    have h2 : Faced (fun _ => False) (((w.log (.headersComplete c hd'.id)).addRelay
        { session := w.sSession, args := c }).log (.create w.nextRelay c hd'.id)) := { h1 with }
    refine h2.setClient (by simp) (by simp) (fun _ => rfl) ?_
    intro s st r rel hX hs hsh hu hr ha he
    -- a stream of a relay of this client would have its client at that relay
    have hc1 : (((w.log (.headersComplete c hd'.id)).addRelay
        { session := w.sSession, args := c }).log (.create w.nextRelay c hd'.id)).clients rel.args
          = some cl := by
      rw [he]
      exact hc
    have hcur : cl.relay = some r := h2.stream s st r rel cl hX hs hsh hu hr ha hc1
    exact absurd (hnone.symm.trans hcur) (by simp)

/-- The client leaves a relay that no open stream names. -/
theorem Faced.next {cl : Client} (h : Faced X w) (hl : Linked w) (hn : Next c w w')
    (hc : w.clients c = some cl) (hcr : cl.relay = some r)
    (hno : ∀ s st, ¬ X s → w.streams s = some st → st.userData ≠ some r)
    (hidle : cl.pendingRequestHeader = none →
      cl.parser = .idle ∧ wantsWrite cl.file.mask = false) : Faced X w' := by
  -- every other stream of the client would have it at another relay
  have hnone : ∀ s st r' rel, ¬ X s → w.streams s = some st → st.shutRd = false →
      st.userData = some r' → w.relays r' = some rel → rel.isAttached = true → rel.args ≠ c := by
    rintro s st r' rel hX hs hsh hu hr ha rfl
    have hcur : cl.relay = some r' := h.stream s st r' rel cl hX hs hsh hu hr ha hc
    rw [hcr, Option.some.injEq] at hcur
    exact hno s st hX hs (hcur ▸ hu)
  cases hn with
  | @idle cl1 hc1 hpend =>
    rw [hc, Option.some.injEq] at hc1
    subst hc1
    obtain ⟨hp, hm⟩ := hidle hpend
    refine h.setClient (fun hb => ?_) (fun hw => ?_) (by simp) ?_
    · exact absurd (hp.symm.trans hb) (by simp)
    · exact absurd (hm.symm.trans hw) (by simp)
    · exact fun s st r' rel hX hs hsh hu hr ha he => absurd he (hnone s st r' rel hX hs hsh hu hr ha)
  | @next cl1 hd hc1 hpend =>
    rw [hc, Option.some.injEq] at hc1
    subst hc1
    have h1 : Faced X (w.addRelay { session := w.sSession, args := c }) := h.addRelay hl
    have h2 : Faced X ((w.addRelay { session := w.sSession, args := c }).log
        (.create w.nextRelay c hd.id)) := { h1 with }
    refine h2.setClient (by simp) (by simp) (fun _ => h.sys c cl hc (by rw [hcr]; simp)) ?_
    intro s st r' rel hX hs hsh hu hr ha he
    have hlt : r' < w.nextRelay := (hl.stream_lt s st hs).2.2 r' hu
    have hr0 : w.relays r' = some rel := by
      rw [World.log_relays, World.addRelay_relays, Function.update_of_ne hlt.ne] at hr
      exact hr
    exact absurd he (hnone s st r' rel hX hs hsh hu hr0 ha)

/-- The end of a response, up to the end of its stream. -/
theorem Faced.finished {s : StreamId} {st : Stream} {frame : Frame} {rel cur : Relay} {cl : Client}
    {r1 : RelayId} (h : Faced (fun _ => False) w) (hl : Linked w)
    (hf : EndFrame w s frame st r rel) (hE : Finished frame rel.args cl cur w w')
    (hc : w.clients rel.args = some cl) (hcr : cl.relay = some r1) (hcur : w.relays r1 = some cur)
    (hg : AnswersWhole w (.recvFrame s frame) = true) :
    Faced (· = s) w' ∧ (frame.endStream = false → Faced (fun _ => False) w') := by
  cases hE with
  | dropped hk hcalm hnone => exact ⟨(h.calm hcalm).mono fun _ => False.elim, fun _ => h.calm hcalm⟩
  | @left w1 hk hcalm hlink hc1 hn =>
    have hG := hf.leaves hg hc hcr hcur hk
    rw [Bool.and_eq_true] at hG
    refine ⟨?_, fun hend => absurd (hend.symm.trans hG.1) (by simp)⟩
    have hctl := answered_ctl cl w.sends frame cur.responseHeader
    have hsh : st.shutRd = false := (Bool.or_eq_false_iff.mp hf.isOpen).1
    have hr1 : r1 = r := by
      have hcur := h.stream s st r rel cl id hf.stream hsh hf.userData hf.relay hf.isAttached hc
      exact Option.some.inj (hcr.symm.trans hcur)
    subst hr1
    have hid : rel.streamId = s := h.own s st r1 rel hf.stream hf.userData hf.relay
    refine ((h.calm hcalm).mono fun _ => False.elim).next (hlink hl) hn hc1
      (hctl.relay.trans hcr) ?_ ?_
    · -- the relay has no other stream
      intro s' st' hne hs' hu'
      obtain ⟨st0, hs0, hst0⟩ := hcalm.streams s' st' hs'
      exact hne ((h.own s' st0 r1 rel hs0 (hst0.userData r1 hu') hf.relay).symm.trans hid)
    · intro hpend
      have hpend0 : cl.pendingRequestHeader.isSome = false := by
        have hmap := hctl.pendingRequestHeader
        rw [hpend] at hmap
        rw [← Option.isSome_map (f := Header.id), ← hmap]
        rfl
      have hG2 := hG.2
      rw [hpend0, if_neg Bool.false_ne_true, Bool.and_eq_true, decide_eq_true_eq,
        Bool.not_eq_true'] at hG2
      exact ⟨hctl.parser.trans hG2.1, hG2.2⟩

/-- The stream of a request that is submitted belongs to the current relay of its client. -/
theorem Faced.of_launched {rel : Relay} {cl : Client} {hd : Header}
    (h : Faced (fun _ => False) w) (ht : Timely w) (hr : w.relays r = some rel)
    (htmr : rel.tmrConnectd = true) (hc : w.clients rel.args = some cl)
    (hcur : cl.relay = some r) : Faced (fun _ => False) (launched w r rel cl hd) := by
  have hcl : ∀ c1 cl1, (launched w r rel cl hd).clients c1 = some cl1 →
      ∃ cl0, w.clients c1 = some cl0 ∧ cl1.relay = cl0.relay ∧ cl1.parser = cl0.parser ∧
        cl1.relaySys = cl0.relaySys ∧
        (wantsWrite cl1.file.mask = true → wantsWrite cl0.file.mask = true) := by
    intro c1 cl1 hc1
    rw [launched_clients, Function.update_apply] at hc1
    split_ifs at hc1 with he
    · rw [← Option.some.inj hc1]
      refine ⟨cl, he ▸ hc, rfl, rfl, rfl, fun hm => ?_⟩
      rw [epFileDetect_mask] at hm
      exact absurd hm (by decide)
    · exact ⟨cl1, hc1, rfl, rfl, rfl, id⟩
  -- an old stream does not name the relay, the new one does
  have hst : ∀ s st r1 rel1, (launched w r rel cl hd).streams s = some st →
      st.userData = some r1 → (launched w r rel cl hd).relays r1 = some rel1 →
      (r1 = r ∧ rel1.args = rel.args ∧ rel1.streamId = s) ∨
        (w.streams s = some st ∧ w.relays r1 = some rel1) := by
    intro s st r1 rel1 hs hu hr1
    rw [launched_streams, Function.update_apply] at hs
    rw [launched_relays, Function.update_apply] at hr1
    split_ifs at hs with hes
    · have he : r1 = r := by
        rw [← Option.some.inj hs] at hu
        exact (Option.some.inj hu).symm
      rw [if_pos he] at hr1
      rw [← Option.some.inj hr1]
      exact Or.inl ⟨he, rfl, hes.symm⟩
    · have he : r1 ≠ r := by
        rintro rfl
        exact (ht.unsent r1 rel hr htmr).2 s st hs hu
      rw [if_neg he] at hr1
      exact Or.inr ⟨hs, hr1⟩
  constructor
  · -- `body`
    intro c1 cl1 hc1 hp
    obtain ⟨cl0, hc0, hrel, hpar, _⟩ := hcl c1 cl1 hc1
    rw [hrel]
    exact h.body c1 cl0 hc0 (hpar.symm.trans hp)
  · -- `mask`
    intro c1 cl1 hc1 hm
    obtain ⟨cl0, hc0, hrel, _, _, hmask⟩ := hcl c1 cl1 hc1
    rw [hrel]
    exact h.mask c1 cl0 hc0 (hmask hm)
  · -- `sys`
    intro c1 cl1 hc1 hr1
    obtain ⟨cl0, hc0, hrel, _, hsys, _⟩ := hcl c1 cl1 hc1
    rw [hsys]
    exact h.sys c1 cl0 hc0 (hrel ▸ hr1)
  · -- `stream`
    intro s st r1 rel1 cl1 hX hs hsh hu hr1 ha hc1
    obtain ⟨cl0, hc0, hrel, _⟩ := hcl _ cl1 hc1
    rw [hrel]
    rcases hst s st r1 rel1 hs hu hr1 with ⟨rfl, hargs, _⟩ | ⟨hs0, hr0⟩
    · rw [hargs, hc, Option.some.injEq] at hc0
      rw [← hc0]
      exact hcur
    · exact h.stream s st r1 rel1 cl0 hX hs0 hsh hu hr0 ha hc0
  · -- `own`
    intro s st r1 rel1 hs hu hr1
    rcases hst s st r1 rel1 hs hu hr1 with ⟨_, _, hid⟩ | ⟨hs0, hr0⟩
    · exact hid
    · exact h.own s st r1 rel1 hs0 hu hr0

theorem Faced.accept {cl : Client} (h : Faced X w) (ht : Timely w) (hp : cl.parser ≠ .body)
    (hm : wantsWrite cl.file.mask = false) (hr : cl.relay = none) :
    Faced X (w.addClient cl) := by
  have hof : ∀ {P : Client → Prop}, P cl → (∀ c1 cl1, w.clients c1 = some cl1 → P cl1) →
      ∀ c1 cl1, (w.addClient cl).clients c1 = some cl1 → P cl1 := by
    intro P h1 h2 c1 cl1 hc1
    rw [World.addClient_clients, Function.update_apply] at hc1
    split_ifs at hc1
    · rw [← Option.some.inj hc1]
      exact h1
    · exact h2 c1 cl1 hc1
  constructor
  · exact hof (P := fun cl1 => _ → cl1.relay ≠ none) (fun hb => absurd hb hp) h.body
  · exact hof (P := fun cl1 => _ → cl1.relay ≠ none)
      (fun hw => absurd (hm.symm.trans hw) (by simp)) h.mask
  · exact hof (P := fun cl1 => _ → cl1.relaySys = true) (fun hne => absurd hr hne) h.sys
  · -- `stream`
    intro s st r1 rel1 cl1 hX hs hsh hu hr1 ha hc1
    -- a relay belongs to a client that came before
    rw [World.addClient_clients, Function.update_of_ne (ht.args_lt r1 rel1 hr1).ne] at hc1
    exact h.stream s st r1 rel1 cl1 hX hs hsh hu hr1 ha hc1
  · exact h.own

/-- **Every turn that meets the condition keeps the invariant.** -/
theorem Faced.of_turn {e : Event} (h : Faced (fun _ => False) w) (hl : Linked w) (ht : Timely w)
    (hg : AnswersWhole w e = true) (hturn : Turn w e w') : Faced (fun _ => False) w' := by
  cases hturn with
  | calm hk => exact h.calm hk
  | accept => exact h.accept ht (by simp) (by rw [epFileDetect_mask]; rfl) rfl
  | msgBegin hc hp hb => exact h.begun hc hb
  | headersComplete hc hp hd => exact h.headersDone hl ht hc hp hd
  | launched hr htmr hc hcur hh hk => exact (h.of_launched ht hr htmr hc hcur).calm hk
  | ended hf hE h2 =>
    obtain ⟨cl, r1, cur, hc, hcr, hcur, hend⟩ :=
      hE.finished hf.completes hf.relay (ht.submitted hf.stream hf.userData hf.relay)
    obtain ⟨hs, hopen⟩ := h.finished hl hf hend hc hcr hcur hg
    split_ifs at h2 with he
    · exact hs.shutRd h2
    · rw [Bool.not_eq_true] at he
      exact h2 ▸ hopen he

/-! ### Faults -/

theorem Fault.plain.not_null {err : Fault} (h : err.plain) : err.isNull = false := by
  obtain ⟨_, hop, hsys, _⟩ := h
  cases err with
  | nullRelay op => exact absurd rfl (hop op)
  | nullRelaySys => exact absurd rfl hsys
  | _ => rfl

/-- A handler of a client that has a relay. -/
theorem ClientFault.not_null {err : Fault} (he : ClientFault w c err)
    (h : ∀ cl, w.clients c = some cl → cl.relay ≠ none ∧ cl.relaySys = true) :
    err.isNull = false := by
  cases err with
  | nullRelay op =>
    obtain ⟨cl, hc, hr⟩ := he
    exact absurd hr (h cl hc).1
  | nullRelaySys =>
    obtain ⟨cl, hc, hsys⟩ := he
    exact absurd (hsys.symm.trans (h cl hc).2) (by simp)
  | _ => rfl

theorem SocketFault.not_null {err : Fault} (he : SocketFault w c err)
    (h : ∀ cl, w.clients c = some cl → cl.relay ≠ none ∧ cl.relaySys = true) :
    err.isNull = false := by
  rcases he with he | ⟨rfl, _⟩
  · exact he.not_null h
  · rfl

theorem RelayFault.not_null {err : Fault} (he : RelayFault w r err) : err.isNull = false := by
  cases err with
  | nullRelay op => exact he.elim
  | nullRelaySys => exact he.elim
  | _ => rfl

theorem SendFault.not_null {err : Fault} (he : SendFault w err) : err.isNull = false := by
  cases err with
  | nullRelay op => exact he.elim
  | nullRelaySys => exact he.elim
  | _ => rfl

theorem ConnectFault.not_null {err : Fault} (hf : ConnectFault c w err w') :
    err.isNull = false := by
  cases hf with
  | early _ he => rcases he with rfl | rfl | rfl <;> rfl
  | submit _ _ _ _ he =>
    cases err with
    | nullRelay op => exact he.elim
    | nullRelaySys => exact he.elim
    | _ => rfl
  | bodies _ _ _ _ he => exact he.not_null

theorem DropFault.not_null {err : Fault} (hf : DropFault r w err w') : err.isNull = false := by
  cases hf with
  | stale _ he _ => rw [he]; rfl
  | attached _ _ he _ => rcases he with rfl | ⟨rfl, _⟩ <;> rfl
  | detached _ _ he _ => rw [he.1]; rfl

/-- The client of a relay with an open stream is at that relay. -/
theorem Faced.client {s : StreamId} {st : Stream} {rel : Relay} {w1 : World}
    (h : Faced (fun _ => False) w) (hs : w.streams s = some st)
    (hopen : (st.shutRd || st.closing) = false) (hu : st.userData = some r)
    (hr : w.relays r = some rel) (ha : rel.isAttached = true) (hk : Calm w w1) {cl1 : Client}
    (hc1 : w1.clients rel.args = some cl1) : cl1.relay ≠ none ∧ cl1.relaySys = true := by
  obtain ⟨cl, hc, hcl⟩ := hk.clients _ cl1 hc1
  have hcur : cl.relay = some r :=
    h.stream s st r rel cl id hs (Bool.or_eq_false_iff.mp hopen).1 hu hr ha hc
  have hne : cl.relay ≠ none := by
    rw [hcur]
    simp
  rw [hcl.relay, hcl.relaySys]
  exact ⟨hne, h.sys _ cl hc hne⟩

/-- The report of a frame finds the client at the relay. -/
theorem Faced.headersFault {s : StreamId} {st : Stream} {rel : Relay} {err : Fault}
    (h : Faced (fun _ => False) w) (ht : Timely w) (hs : w.streams s = some st)
    (hopen : (st.shutRd || st.closing) = false) (hu : st.userData = some r)
    (hr : w.relays r = some rel) (ha : rel.isAttached = true) (hf : HeadersFault r w err w') :
    err.isNull = false := by
  cases hf with
  | noHeader he _ => rw [he]; rfl
  | @heading ends rel0 rel1 hr0 hk he _ =>
    rw [hr, Option.some.injEq] at hr0
    subst hr0
    rw [hk.kept.1.args] at he
    exact he.not_null fun cl hc => h.client hs hopen hu hr ha (.refl w) hc
  | @ending rel1 w1 h1 hr1 he _ =>
    have hcalm : Calm w w1 := by
      rcases h1 with rfl | ⟨_, hp⟩
      · exact .refl _
      · exact hp.calm fun rel' hr' => ht.submitted hs hu hr'
    obtain ⟨rel0, hr0, hrel⟩ := hcalm.relays r rel1 hr1
    rw [hr, Option.some.injEq] at hr0
    subst hr0
    rw [hrel.args] at he
    exact he.not_null fun cl hc => h.client hs hopen hu hr ha hcalm hc

/-- **No step from a state with the invariant uses a relay that is `NULL`.** -/
theorem Faced.handleFault {e : Event} {err : Fault} (h : Faced (fun _ => False) w)
    (ht : Timely w) (hf : HandleFault w e err w') : err.isNull = false := by
  -- a client in a body has a relay
  have hbody : ∀ c cl, w.clients c = some cl → cl.parser = .body → ClientFault w c err →
      err.isNull = false := by
    intro c cl hc hp he
    refine he.not_null fun cl' hc' => ?_
    rw [hc, Option.some.injEq] at hc'
    subst hc'
    exact ⟨h.body c cl hc hp, h.sys c cl hc (h.body c cl hc hp)⟩
  cases hf with
  | plain hp _ => exact hp.not_null
  | headers _ _ _ he _ => exact he.not_null
  | body hc hp he _ => exact hbody _ _ hc hp he
  | bodyWrite _ _ _ _ _ he _ => exact he.not_null
  | messageComplete hc hp he _ => exact hbody _ _ hc hp he
  | clientGone he hne hsys _ =>
    -- `client_drop` asks whether there is a relay
    cases err with
    | nullRelay op => exact absurd rfl (hne op)
    | nullRelaySys =>
      obtain ⟨cl, hc, hr, hs⟩ := hsys rfl
      exact absurd (hs.symm.trans (h.sys _ cl hc hr)) (by simp)
    | _ => rfl
  | @writable c cl _ _ hc hm he _ =>
    -- a client whose mask has `EP_WRITE` has a relay
    refine he.not_null fun cl' hc' => ?_
    rw [hc, Option.some.injEq] at hc'
    subst hc'
    exact ⟨h.mask c cl hc hm, h.sys c cl hc (h.mask c cl hc hm)⟩
  | timerConnected _ _ _ hc => exact hc.not_null
  | timerFailed _ _ he _ => exact he.not_null
  | tunnelFailed _ _ _ h2 => exact h2.not_null
  | stale _ _ _ _ he _ => rw [he]; rfl
  | frame _ hs hopen hu hr ha _ hf => exact h.headersFault ht hs hopen hu hr ha hf
  | frameEnd _ _ _ _ _ he _ => exact he.not_null
  | rst _ _ _ _ _ he _ => rcases he with rfl | ⟨rfl, _⟩ <;> rfl
  | rstClose _ _ _ he _ _ => exact he.not_null
  | recvData _ hs hopen hc =>
    cases hc with
    | stale _ _ he _ => rw [he]; rfl
    | body hu hr ha he _ =>
      exact he.not_null fun cl hc => h.client hs hopen hu hr ha (.refl w) hc
    | send _ _ _ _ he _ => exact he.not_null
  | send _ he _ => exact he.not_null

/-! ### Runs -/

/-- **No run uses a relay that is `NULL`.**  In a run in which every frame that makes a client leave
its relay ends the stream, and comes when the next request is ready or the present one is read and
answered completely, no handler calls an operation of a relay that the client does not have. -/
theorem wp_run_not_null (is : List Input)
    (hG : Meets step (fun w i => AnswersWhole (prepared w i) i.event = true) is World.init) :
    wp (run step is) (fun _ _ => True) (fun err _ => err.isNull = false) World.init := by
  have hstep : ∀ (w : World) (i : Input), Linked w ∧ Timely w ∧ Faced (fun _ => False) w →
      AnswersWhole (prepared w i) i.event = true →
      wp (step i) (fun _ w' => Linked w' ∧ Timely w' ∧ Faced (fun _ => False) w')
        (fun err _ => err.isNull = false) w := by
    rintro w i ⟨hl, ht, h⟩ hg
    have hp : Faced (fun _ => False) (prepared w i) := { h with }
    apply step_spec i
    · intro w' hh
      have hturn := (ht.prepared i).turn (hl.prepared i) hh
      refine ⟨(hl.prepared i).handled hh, ?_, ?_⟩
      · exact (ht.prepared i).of_turn (hl.prepared i) (AnswersWhole.headersWhole hg) hturn
      · exact hp.of_turn (hl.prepared i) (ht.prepared i) hg hturn
    · exact fun err w' hf => hp.handleFault (ht.prepared i) hf
  have hinit : Linked World.init ∧ Timely World.init ∧ Faced (fun _ => False) World.init :=
    ⟨linked_init, timely_init, faced_init⟩
  exact wp_mono (run_wp hstep is World.init hinit hG) (fun _ _ _ => trivial) fun _ _ => id

/-- An upload, its response, and a second request that is pending when the first response ends. -/
theorem wp_run_not_null_served :
    Meets step (fun w i => AnswersWhole (prepared w i) i.event = true)
      (inputs (opening ++ requestHead 0 (bytes "POST") ++ [.timer 0, .body 0 (bytes "x"),
        .messageComplete 0] ++ getRequest 0 ++ emptyResponse 1 ++ [.timer 1] ++ emptyResponse 3 ++
        getRequest 0)) World.init ∧
    wp (run step
        (inputs (opening ++ requestHead 0 (bytes "POST") ++ [.timer 0, .body 0 (bytes "x"),
          .messageComplete 0] ++ getRequest 0 ++ emptyResponse 1 ++ [.timer 1] ++ emptyResponse 3 ++
          getRequest 0)))
      (fun _ _ => True) (fun err _ => err.isNull = false) World.init :=
  ⟨by decide +kernel, wp_run_not_null _ (by decide +kernel)⟩

/-- The response to an upload ends before the upload does: the next piece of the body finds no
relay. -/
theorem not_always_not_null : ¬ ∀ is : List Input,
    wp (run step is) (fun _ _ => True) (fun err _ => err.isNull = false) World.init := by
  intro h
  have h1 := h (inputs (opening ++ requestHead 0 (bytes "POST") ++ [Event.timer 0] ++ emptyResponse 1 ++
    [Event.body 0 (bytes "x")]))
  have h2 : wp (run step (inputs (opening ++ requestHead 0 (bytes "POST") ++ [Event.timer 0] ++
        emptyResponse 1 ++ [Event.body 0 (bytes "x")])))
      (fun _ _ => False) (fun err _ => err = .nullRelay .getStatus) World.init := by
    decide +kernel
  -- the run ends in a fault, and the fault is one of those
  have h3 : wp (run step (inputs (opening ++ requestHead 0 (bytes "POST") ++ [Event.timer 0] ++
        emptyResponse 1 ++ [Event.body 0 (bytes "x")])))
      (fun _ _ => False) (fun _ _ => False) World.init := by
    refine wp_mono (wp_and h1 h2) (fun _ _ hq => hq.2) ?_
    rintro err _ ⟨hnull, rfl⟩
    exact absurd hnull (by simp [Fault.isNull])
  obtain ⟨_, _, hfalse⟩ := exists_of_wp h3
  exact hfalse

end H2ClientProxy
