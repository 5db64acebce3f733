import H2ClientProxy.System
import H2ClientProxy.Equiv.Parser

/-!
# What one step can do

`Handled w e w'` lists what the handler of the event `e` can leave behind, and `HandleFault w e err w'`
where it can fault; `handle_spec` proves that these are all the outcomes.  Invariants of the proxy
are proved by cases on these two relations and never look at a program again.

The relations are put together from those of the client (`MsgDone`, `BodyDone`, `Dropped`, …) and
from the phases in which a frame is reported: the header is announced (`HdrPhase`), the response is
ended (`MsgPhase`), and `END_STREAM` takes effect (`ShutRd`).
-/

namespace H2ClientProxy

open Wp SendQueue

variable {w w' : World}

/-! ### Calling back -/

@[simp]
theorem wp_relayCallback (cb : RelayEventcb) (r : RelayId) (what : RelayWhat)
    {Q : Unit → World → Prop} {E : Fault → World → Prop} :
    wp (relayCallback cb r what) Q E = fun w =>
      match w.relays r with
      | some rel => wp (cb rel.args what) Q E (w.log (.event r what rel.responseHeader rel.bodyData))
      | none => E (.relayFreed r) w := by
  funext w
  cases hr : w.relays r with
  | none => simp only [relayCallback, wp_bind, wp_getRelay, hr]
  | some rel => simp only [relayCallback, wp_bind, wp_getRelay, wp_note, hr]

/-- The relay `r` announces the end of its response. -/
def ending (w : World) (r : RelayId) (rel : Relay) : World :=
  (w.setRelay r { rel with relayStatus := .msgComplete }).log
    (.event r .msgComplete rel.responseHeader rel.bodyData)

/-- The relay `r` announces its response header. -/
def heading (w : World) (r : RelayId) (rel : Relay) : World :=
  (w.setRelay r { rel with relayStatus := .headerComplete }).log
    (.event r .headerComplete rel.responseHeader rel.bodyData)

/-- `relay_free`. -/
def freed (w : World) (r : RelayId) (rel : Relay) : World :=
  (w.mapStream rel.streamId ({ · with userData := none })).removeRelay r

/-- The response of `r` ends: the client is told and leaves the relay. -/
def MsgPhase (r : RelayId) (w w' : World) : Prop :=
  ∃ rel, w.relays r = some rel ∧ MsgDone rel.args (ending w r rel) w'

/-- The relay with the header it announces; with `ends` the response has no body, and the header is
left as it is. -/
def Checked (ends : Bool) (rel rel1 : Relay) : Prop :=
  rel1 = rel ∨ ends = false ∧ rel1 = relayCheckLengthInfo rel

/-- `data` is the head that the client writes for the response of the relay `r`. -/
def HeadOf (w : World) (r : RelayId) (data : Bytes) : Prop :=
  ∃ rel, w.relays r = some rel ∧ responseHead rel.responseHeader = some data

/-- The header of the response of `r` is complete: the client is told and writes it out. -/
def HdrPhase (ends : Bool) (r : RelayId) (w w' : World) : Prop :=
  ∃ rel rel1 cl r1 data, w.relays r = some rel ∧ Checked ends rel rel1 ∧
    w.clients rel.args = some cl ∧ cl.relay = some r1 ∧ w.relays r1 ≠ none ∧
    HeadOf (heading w r rel1) r1 data ∧ w' = wroteTo (heading w r rel1) rel.args cl data

theorem relayCheckLengthInfo_kept (rel : Relay) : RelayKept rel (relayCheckLengthInfo rel) ∧
    (relayCheckLengthInfo rel).streamId = rel.streamId := by
  unfold relayCheckLengthInfo
  dsimp only
  split_ifs <;> exact ⟨⟨rfl, rfl, rfl, rfl, rfl⟩, rfl⟩

theorem Checked.kept {ends : Bool} {rel rel1 : Relay} (h : Checked ends rel rel1) :
    RelayKept rel rel1 ∧ rel1.streamId = rel.streamId := by
  rcases h with rfl | ⟨_, rfl⟩
  · exact ⟨Std.Refl.refl _, rfl⟩
  · exact relayCheckLengthInfo_kept rel

theorem relayOnMessageComplete_spec {r : RelayId} {rel : Relay} (hr : w.relays r = some rel) :
    wp (relayOnMessageComplete clientRelayCb r) (fun _ => MsgPhase r w)
      (fun e w' => w'.trace = (ending w r rel).trace ∧ ClientFault (ending w r rel) rel.args e) w := by
  simp only [relayOnMessageComplete, wp_bind, wp_getRelay, hr, wp_putRelay, wp_relayCallback,
    World.setRelay_relays, Function.update_self, clientRelayCb]
  exact wp_mono (clientHandleRelayMsgComplete_spec rel.args) (fun _ w' h => ⟨rel, hr, h⟩)
    (fun _ _ => id)

/-- The header is announced in a world that may already hold the checked header. -/
theorem relayOnResponseHeaderComplete_spec {ends : Bool} {r : RelayId} {rel rel1 : Relay}
    {w1 : World} (hr : w.relays r = some rel) (hk : Checked ends rel rel1) (hr1 : w1.relays r = some rel1)
    (hw : heading w1 r rel1 = heading w r rel1) (hclients : w1.clients = w.clients) :
    wp (relayOnResponseHeaderComplete clientRelayCb r) (fun _ => HdrPhase ends r w)
      (fun e w' => w'.trace = (heading w r rel1).trace ∧
        ClientFault (heading w r rel1) rel1.args e) w1 := by
  simp only [relayOnResponseHeaderComplete, wp_bind, wp_getRelay, hr1, wp_putRelay,
    wp_relayCallback, World.setRelay_relays, Function.update_self, clientRelayCb]
  refine wp_mono (clientHandleRelayHdrComplete_spec (w := heading w1 r rel1) rel1.args) ?_ ?_
  · rintro _ w' ⟨cl, r', rel', data, hc, hcr, hrel', hhead, rfl⟩
    have hargs : rel1.args = rel.args := hk.kept.1.args
    have hc' : w1.clients rel1.args = some cl := hc
    refine ⟨rel, rel1, cl, r', data, hr, hk, ?_, hcr, ?_, ⟨rel', hw ▸ hrel', hhead⟩, ?_⟩
    · rw [← hargs, ← hclients]
      exact hc'
    · rw [hw] at hrel'
      simp only [heading, World.log_relays, World.setRelay_relays, Function.update_apply] at hrel'
      split_ifs at hrel' with he
      · rw [he, hr]
        simp
      · rw [hrel']
        simp
    · rw [← hargs, hw]
  · rintro e w' ⟨rfl, he⟩
    rw [hw] at he ⊢
    exact ⟨rfl, he⟩

/-- Where the report of a `HEADERS` frame can fault. -/
inductive HeadersFault (r : RelayId) (w : World) (e : Fault) (w' : World) : Prop
  | noHeader (he : e = .nullHeader) (ht : w'.trace = w.trace)
  | heading {ends : Bool} {rel rel1 : Relay} (hr : w.relays r = some rel) (hk : Checked ends rel rel1)
      (he : ClientFault (heading w r rel1) rel1.args e) (ht : w'.trace = (heading w r rel1).trace)
  | ending {rel1 : Relay} {w1 : World} (h1 : w1 = w ∨ ∃ ends, HdrPhase ends r w w1)
      (hr1 : w1.relays r = some rel1) (he : ClientFault (ending w1 r rel1) rel1.args e)
      (ht : w'.trace = (ending w1 r rel1).trace)

/-- Announcing the header leaves the relay there. -/
theorem HdrPhase.relays_ne_none {ends : Bool} {r : RelayId} (h : HdrPhase ends r w w') :
    ∃ rel, w'.relays r = some rel := by
  obtain ⟨rel, rel1, cl, r1, data, _, _, _, _, _, _, rfl⟩ := h
  exact ⟨_, Function.update_self ..⟩

/-- What the report of a `HEADERS` frame leaves. -/
def HeadersPhases (flags : Flags) (r : RelayId) (w w' : World) : Prop :=
  ∃ w1, (if isEndHeaders flags then HdrPhase (isEndStream flags) r w w1 else w1 = w) ∧
    (if isEndStream flags then MsgPhase r w1 w' else w' = w1)

/-- The end of the report, from the world that the header phase left. -/
theorem endStream_spec {r : RelayId} {rel : Relay} {flags : Flags} {w1 : World}
    (hr : w.relays r = some rel)
    (h1 : if isEndHeaders flags then HdrPhase (isEndStream flags) r w w1 else w1 = w) :
    wp (if isEndStream flags then relayOnMessageComplete clientRelayCb r else pure ())
      (fun _ => HeadersPhases flags r w) (HeadersFault r w) w1 := by
  have h1' : w1 = w ∨ ∃ ends, HdrPhase ends r w w1 := by
    split_ifs at h1
    · exact Or.inr ⟨_, h1⟩
    · exact Or.inl h1
  obtain ⟨rel1, hr1⟩ : ∃ rel1, w1.relays r = some rel1 := by
    rcases h1' with rfl | ⟨_, h1'⟩
    · exact ⟨rel, hr⟩
    · exact h1'.relays_ne_none
  rw [wp_ite]
  dsimp only
  split_ifs with hes
  · refine wp_mono (relayOnMessageComplete_spec hr1) (fun _ w' h => ⟨w1, h1, ?_⟩) ?_
    · rw [if_pos hes]
      exact h
    · exact fun e w' h => .ending h1' hr1 h.2 h.1
  · exact ⟨w1, h1, by rw [if_neg hes]⟩

theorem relayOnHeadersFrame_spec {r : RelayId} {rel : Relay} (hr : w.relays r = some rel)
    (flags : Flags) :
    wp (relayOnHeadersFrame clientRelayCb r flags) (fun _ => HeadersPhases flags r w)
      (fun e w' => (isEndHeaders flags || isEndStream flags) = true ∧ HeadersFault r w e w') w := by
  suffices h : wp (relayOnHeadersFrame clientRelayCb r flags) (fun _ => HeadersPhases flags r w)
      (HeadersFault r w) w by
    cases hcb : isEndHeaders flags || isEndStream flags with
    | true => exact wp_mono h (fun _ _ => id) fun _ _ he => ⟨rfl, he⟩
    | false =>
      -- without one of the two flags nothing is called
      rw [Bool.or_eq_false_iff] at hcb
      simp only [relayOnHeadersFrame, hcb.1, hcb.2, Bool.false_eq_true, if_false, wp_pure]
      exact ⟨w, by rw [hcb.1]; rfl, by rw [hcb.2]; rfl⟩
  unfold relayOnHeadersFrame
  by_cases heh : isEndHeaders flags = true
  · -- the header phase, in a world that may already hold the checked header
    have hhdr : ∀ rel1 w1, Checked (isEndStream flags) rel rel1 → w1.relays r = some rel1 →
        heading w1 r rel1 = heading w r rel1 → w1.clients = w.clients →
        wp (do
          relayOnResponseHeaderComplete clientRelayCb r
          if isEndStream flags then relayOnMessageComplete clientRelayCb r else pure ())
          (fun _ => HeadersPhases flags r w) (HeadersFault r w) w1 := by
      intro rel1 w1 hk hr1 hw hc
      rw [wp_bind]
      refine wp_mono (relayOnResponseHeaderComplete_spec hr hk hr1 hw hc) ?_ ?_
      · intro _ w2 h2
        exact endStream_spec hr (by rw [if_pos heh]; exact h2)
      · exact fun e w' h => .heading hr hk h.2 h.1
    rw [if_pos heh]
    by_cases hes : isEndStream flags = true
    · have h := hhdr rel w (Or.inl rfl) hr rfl rfl
      simp only [hes, if_true] at h
      simpa only [hes, Bool.not_true, Bool.false_eq_true, if_false, if_true] using h
    · simp only [hes, Bool.not_false, if_true, wp_bind, wp_getRelay, hr]
      cases hh : rel.requestHeader with
      | none => exact .noHeader rfl rfl
      | some h =>
        by_cases hm : strcasecmp h.method (bytes "connect") = true
        · have h := hhdr rel w (Or.inl rfl) hr rfl rfl
          simpa only [hes, hm, Bool.not_true, Bool.false_eq_true, if_false, wp_bind] using h
        · have h := hhdr (relayCheckLengthInfo rel) (w.setRelay r (relayCheckLengthInfo rel))
            (Or.inr ⟨Bool.not_eq_true _ ▸ hes, rfl⟩) (Function.update_self ..)
            (by simp only [heading, World.setRelay, Function.update_idem]) rfl
          simpa only [hes, hm, Bool.not_false, Bool.false_eq_true, if_false, if_true, wp_bind,
            wp_putRelay] using h
  · have h0 : if isEndHeaders flags then HdrPhase (isEndStream flags) r w w else w = w := by
      rw [if_neg heh]
    have h := endStream_spec hr h0
    simpa only [heh, Bool.false_eq_true, if_false] using h

/-! ### Frames -/

/-- `END_STREAM` is set. -/
def Frame.endStream : Frame → Bool
  | .data flags | .headers flags => isEndStream flags
  | _ => false

/-- The callback takes the frame for the end of the response: for `DATA`, any flag will do. -/
def Frame.completes : Frame → Bool
  | .data flags => flags ≠ 0
  | .headers flags => isEndStream flags
  | _ => false

theorem Frame.completes_of_endStream {frame : Frame} (h : frame.endStream = true) :
    frame.completes = true := by
  cases frame with
  | data flags =>
    simp only [endStream, isEndStream, decide_eq_true_eq] at h
    simp only [completes, decide_eq_true_eq]
    rintro rfl
    exact h (by decide)
  | headers flags => exact h
  | rstStream => exact absurd h (by simp [endStream])
  | other => exact absurd h (by simp [endStream])

/-- The callback announces the header of the response. -/
def Frame.announces : Frame → Bool
  | .headers flags => isEndHeaders flags
  | _ => false

/-- The callback calls the client back. -/
def Frame.callsBack : Frame → Bool
  | .rstStream => true
  | frame => frame.announces || frame.completes

/-- What the report of a frame that is not a `RST_STREAM` leaves. -/
inductive Reported (w : World) (userData : Option RelayId) (frame : Frame) : World → Prop
  | ignored (h : ∀ r, userData = some r → ∃ rel, w.relays r = some rel ∧ rel.isAttached = false) :
      Reported w userData frame w
  | phases {r : RelayId} {rel : Relay} {w1 w' : World} (hu : userData = some r)
      (hr : w.relays r = some rel) (ha : rel.isAttached = true)
      (h1 : if frame.announces then HdrPhase frame.endStream r w w1 else w1 = w)
      (h2 : if frame.completes then MsgPhase r w1 w' else w' = w1) : Reported w userData frame w'

/-- Where that report can fault. -/
inductive ReportFault (w : World) (userData : Option RelayId) (frame : Frame) (e : Fault)
    (w' : World) : Prop
  | stale {r : RelayId} (hu : userData = some r) (hr : w.relays r = none) (he : e = .relayFreed r)
      (ht : w'.trace = w.trace)
  | headers {r : RelayId} {rel : Relay} (hu : userData = some r) (hr : w.relays r = some rel)
      (ha : rel.isAttached = true) (hcb : frame.callsBack = true) (h : HeadersFault r w e w')

theorem relaySessionOnFrameRecv_spec (userData : Option RelayId) (frame : Frame)
    (hf : frame ≠ .rstStream) :
    wp (relaySessionOnFrameRecv clientRelayCb userData frame) (fun _ => Reported w userData frame)
      (ReportFault w userData frame) w := by
  unfold relaySessionOnFrameRecv
  cases hu : userData with
  | none => exact .ignored (by simp)
  | some r =>
    simp only [wp_bind, wp_getRelay]
    cases hr : w.relays r with
    | none => exact .stale rfl hr rfl rfl
    | some rel =>
      simp only [wp_ite, wp_pure]
      split_ifs with ha
      · rw [Bool.not_eq_true'] at ha
        exact .ignored (by rintro _ ⟨rfl⟩; exact ⟨rel, hr, ha⟩)
      · rw [Bool.not_eq_true', Bool.not_eq_false] at ha
        cases frame with
        | data flags =>
          simp only [wp_ite, wp_pure]
          split_ifs with h0
          · have hcomp : (Frame.data flags).completes = true := decide_eq_true h0
            refine wp_mono (relayOnMessageComplete_spec hr) ?_ ?_
            · exact fun _ w' h => .phases rfl hr ha rfl (by rw [if_pos hcomp]; exact h)
            · exact fun e w' h => .headers rfl hr ha hcomp (.ending (Or.inl rfl) hr h.2 h.1)
          · have hcomp : ¬ (Frame.data flags).completes = true := by
              rw [show (Frame.data flags).completes = false from decide_eq_false h0]
              exact Bool.false_ne_true
            exact .phases rfl hr ha rfl (by rw [if_neg hcomp])
        | headers flags =>
          refine wp_mono (relayOnHeadersFrame_spec hr flags) ?_ ?_
          · rintro _ w' ⟨w1, h1, h2⟩
            exact .phases rfl hr ha h1 h2
          · exact fun e w' h => .headers rfl hr ha h.1 h.2
        | rstStream => exact absurd rfl hf
        | other => exact .phases rfl hr ha rfl (by simp [Frame.completes])

/-- `END_STREAM` takes effect on the stream `s`, which may close it. -/
def ShutRd (s : StreamId) (w w' : World) : Prop :=
  Sent (fun _ => False) (w.mapStream s ({ · with shutRd := true })) w'

theorem shutdownRd_spec (s : StreamId) :
    wp (shutdownRd s) (fun _ => ShutRd s w)
      (fun e w' => w'.trace = w.trace ∧
        SendFault (w.mapStream s ({ · with shutRd := true })) e) w := by
  simp only [shutdownRd, wp_bind, wp_get, wp_modify, wp_ite, wp_pure]
  split_ifs
  · refine wp_mono (closeStream_spec (D := fun _ => False) s ?_) (fun _ _ => id) ?_
    · intro st hst
      rw [World.mapStream_streams, Function.update_self, Option.map_eq_some_iff] at hst
      obtain ⟨st0, _, rfl⟩ := hst
      exact Or.inl rfl
    · rintro e w' ⟨rfl, he⟩
      exact ⟨rfl, he⟩
  · exact .refl _ _

/-- What a `RST_STREAM` frame leaves before its stream is closed. -/
inductive RstReported (w : World) (userData : Option RelayId) : World → Prop
  | ignored (h : ∀ r, userData = some r → ∃ rel, w.relays r = some rel ∧ rel.isAttached = false) :
      RstReported w userData w
  | dropped {r : RelayId} {rel : Relay} (hu : userData = some r) (hr : w.relays r = some rel)
      (ha : rel.isAttached = true) (hc : w.clients rel.args ≠ none) :
      RstReported w userData
        (freed ((w.log (.event r .errConnFailed rel.responseHeader rel.bodyData)).setClient
          rel.args none) r rel)

/-- Where it can fault. -/
inductive RstFault (w : World) (userData : Option RelayId) (e : Fault) (w' : World) : Prop
  | stale {r : RelayId} (hu : userData = some r) (hr : w.relays r = none) (he : e = .relayFreed r)
      (ht : w'.trace = w.trace)
  | dropping {r : RelayId} {rel : Relay} (hu : userData = some r) (hr : w.relays r = some rel)
      (ha : rel.isAttached = true)
      (he : e = .clientFreed rel.args ∨ e = .nullSession ∧ rel.session = false)
      (ht : w'.trace = w.trace ++ [.event r .errConnFailed rel.responseHeader rel.bodyData])

theorem relaySessionOnRst_spec (userData : Option RelayId) :
    wp (relaySessionOnFrameRecv clientRelayCb userData .rstStream) (fun _ => RstReported w userData)
      (RstFault w userData) w := by
  unfold relaySessionOnFrameRecv
  cases hu : userData with
  | none => exact .ignored (by simp)
  | some r =>
    simp only [wp_bind, wp_getRelay]
    cases hr : w.relays r with
    | none => exact .stale rfl hr rfl rfl
    | some rel =>
      simp only [wp_ite, wp_pure]
      split_ifs with ha
      · rw [Bool.not_eq_true'] at ha
        exact .ignored (by rintro _ ⟨rfl⟩; exact ⟨rel, hr, ha⟩)
      · rw [Bool.not_eq_true', Bool.not_eq_false] at ha
        simp only [wp_bind, wp_relayCallback, hr, clientRelayCb]
        refine wp_mono (clientHandleRelayErr_spec rel.args) ?_ ?_
        · rintro _ w1 ⟨hc, rfl⟩
          refine wp_mono (relayFree_spec hr) ?_ ?_
          · rintro _ w2 rfl
            exact .dropped rfl hr ha hc
          · rintro e w2 ⟨rfl, he⟩
            exact .dropping rfl hr ha (Or.inr he) rfl
        · rintro e w1 ⟨rfl, rfl⟩
          exact .dropping rfl hr ha (Or.inl rfl) rfl

/-! ### Pieces of `DATA` -/

/-- The world in which the client is told of a piece of `DATA`. -/
def chunked (w : World) (s : StreamId) (r : RelayId) (rel : Relay) (data : Bytes) : World :=
  ((w.mapStream s fun st => { st with recvLen := st.recvLen + data.length }).setRelay r
    { rel with bodyData := data }).log (.event r .body rel.responseHeader data)

/-- What a piece of `DATA` leaves. -/
inductive ChunkDone (w : World) (s : StreamId) (st : Stream) (data : Bytes) : World → Prop
  | ignored (h : ∀ r, st.userData = some r → ∃ rel, w.relays r = some rel ∧ rel.isAttached = false) :
      ChunkDone w s st data (w.mapStream s fun st => { st with recvLen := st.recvLen + data.length })
  | written {r : RelayId} {rel rel1 : Relay} {w1 w2 w' : World} (hu : st.userData = some r)
      (hr : w.relays r = some rel) (ha : rel.isAttached = true)
      (h1 : BodyDone rel.args (chunked w s r rel data) w1) (hr1 : w1.relays r = some rel1)
      (h2 : if rel1.isResponseReadSuspend = false ∧ 30000 < st.recvLen + data.length then
        w2 = w1.mapStream s ({ · with recvLen := 0 }) else w2 = w1)
      (h3 : Sent (· ∈ w2.closeOnSend) w2 w') : ChunkDone w s st data w'

/-- Where it can fault. -/
inductive ChunkFault (w : World) (s : StreamId) (st : Stream) (data : Bytes) (e : Fault)
    (w' : World) : Prop
  | stale {r : RelayId} (hu : st.userData = some r) (hr : w.relays r = none)
      (he : e = .relayFreed r) (ht : w'.trace = w.trace)
  | body {r : RelayId} {rel : Relay} (hu : st.userData = some r) (hr : w.relays r = some rel)
      (ha : rel.isAttached = true) (he : ClientFault (chunked w s r rel data) rel.args e)
      (ht : w'.trace = (chunked w s r rel data).trace)
  | send {r : RelayId} {rel : Relay} {w1 : World} (hu : st.userData = some r)
      (hr : w.relays r = some rel) (ha : rel.isAttached = true)
      (h1 : BodyDone rel.args (chunked w s r rel data) w1) (he : SendFault w1 e)
      (ht : w'.trace = w1.trace)

/-- Writing a chunk to the client frees nothing and leaves the streams alone. -/
theorem BodyDone.streams {c : ClientId} (h : BodyDone c w w') : w'.streams = w.streams := by
  obtain ⟨cl, r, rel, cl1, w1, _, _, ⟨sends, _, _, rfl⟩, h⟩ := h
  rcases h with ⟨_, rfl⟩ | ⟨_, rfl⟩ <;> rfl

theorem BodyDone.relays_ne_none {c : ClientId} (h : BodyDone c w w') {r : RelayId}
    (hr : w.relays r ≠ none) : ∃ rel, w'.relays r = some rel := by
  obtain ⟨cl, r1, rel, cl1, w1, _, _, ⟨sends, _, _, rfl⟩, h⟩ := h
  rcases h with ⟨_, rfl⟩ | ⟨_, rfl⟩
  · by_cases he : r = r1
    · rw [he]
      exact ⟨_, Function.update_self ..⟩
    · rw [World.setRelay_relays, Function.update_of_ne he]
      exact Option.ne_none_iff_exists'.mp hr
  · exact Option.ne_none_iff_exists'.mp hr

/-- A change of a stream that keeps its user data. -/
theorem SessionsOk.mapStream {s : StreamId} {f : Stream → Stream} (ho : SessionsOk w)
    (hf : ∀ st, (f st).userData = st.userData) : SessionsOk (w.mapStream s f) := by
  intro s' st' r rel hs' hu hr
  obtain ⟨st, hst, rfl⟩ := World.mapStream_eq_some hs'
  refine ho s' st r rel hst ?_ hr
  split_ifs at hu
  · rw [← hf st]
    exact hu
  · exact hu

/-- Acknowledging what was received makes no new faults. -/
theorem SendFault.of_mapStream {s : StreamId} {f : Stream → Stream} {e : Fault}
    (hf : ∀ st, (f st).userData = st.userData ∧ (f st).provider = st.provider)
    (h : SendFault (w.mapStream s f) e) : SendFault w e := by
  cases e with
  | relayFreed r =>
    refine fun ho => h fun s' st' hs' => ?_
    rw [World.mapStream_streams, Function.update_apply] at hs'
    split_ifs at hs' with he
    · rw [Option.map_eq_some_iff] at hs'
      obtain ⟨st, hst, rfl⟩ := hs'
      rw [(hf st).1, (hf st).2, he]
      exact ho s st hst
    · exact ho s' st' hs'
  | nullSession => exact fun ho => h (ho.mapStream fun st => (hf st).1)
  | _ => exact h

theorem relayOnDataChunkRecv_spec {s : StreamId} {st : Stream} (data : Bytes)
    (hs : w.streams s = some st) :
    wp (relayOnDataChunkRecv clientRelayCb s data) (fun _ => ChunkDone w s st data)
      (ChunkFault w s st data)
      (w.mapStream s fun st => { st with recvLen := st.recvLen + data.length }) := by
  simp only [relayOnDataChunkRecv, getRecvLen, wp_bind, wp_needSession, if_true, wp_get, wp_pure,
    World.mapStream_streams, Function.update_self, hs, Option.map_some, Option.getD_some,
    getStreamUserData, Option.bind_some]
  cases hu : st.userData with
  | none => exact .ignored (by simp [hu])
  | some r =>
    simp only [wp_bind, wp_getRelay, World.mapStream_relays]
    cases hr : w.relays r with
    | none => exact .stale hu hr rfl rfl
    | some rel =>
      simp only [wp_ite, wp_pure, wp_bind, wp_putRelay, wp_relayCallback, World.setRelay_relays,
        Function.update_self, clientRelayCb]
      split_ifs with ha
      · rw [Bool.not_eq_true'] at ha
        exact .ignored (by rw [hu]; rintro _ ⟨rfl⟩; exact ⟨rel, hr, ha⟩)
      · rw [Bool.not_eq_true', Bool.not_eq_false] at ha
        refine wp_mono (clientHandleRelayBody_spec (w := chunked w s r rel data) rel.args) ?_ ?_
        · intro _ w1 h1
          -- the relay is read again behind the callback, which frees none
          obtain ⟨rel1, hr1⟩ := h1.relays_ne_none (r := r)
            (by rw [chunked, World.log_relays, World.setRelay_relays, Function.update_self]; simp)
          have hs1 : w1.streams s = some { st with recvLen := st.recvLen + data.length } := by
            rw [h1.streams, chunked, World.log_streams, World.setRelay_streams,
              World.mapStream_streams, Function.update_self, hs, Option.map_some]
          have hack := mapStream_recvLen hs1
          simp only [wp_getRelay, hr1, wp_bind, submitWindowUpdate, wp_needSession, if_true,
            wp_modify]
          split_ifs with hcond
          · rw [hack]
            rw [Bool.and_eq_true, Bool.not_eq_true', decide_eq_true_eq] at hcond
            refine wp_mono (sessionSend_spec rfl) (fun _ w' h3 => ?_) ?_
            · refine .written hu hr ha h1 hr1 ?_ h3
              rw [if_pos ⟨hcond.1, by omega⟩]
            · rintro e w' ⟨h3, he⟩
              refine .send hu hr ha h1 ?_ h3.trace
              exact he.of_mapStream (f := ({ · with recvLen := 0 })) fun _ => ⟨rfl, rfl⟩
          · refine wp_mono (sessionSend_spec rfl) (fun _ w' h3 => ?_) ?_
            · refine .written hu hr ha h1 hr1 ?_ h3
              rw [Bool.and_eq_true, Bool.not_eq_true', decide_eq_true_eq] at hcond
              rw [if_neg]
              rintro ⟨h4, h5⟩
              exact hcond ⟨h4, by omega⟩
            · exact fun e w' h => .send hu hr ha h1 h.2 h.1.trace
        · rintro e w1 ⟨rfl, he⟩
          exact .body hu hr ha he rfl

/-! ### The failure of the tunnel -/

/-- One relay is dropped: its client is told if it is attached, and the relay is freed. -/
inductive DropOne (r : RelayId) (w : World) : World → Prop
  | attached {rel : Relay} (hr : w.relays r = some rel) (ha : rel.isAttached = true)
      (hc : w.clients rel.args ≠ none) :
      DropOne r w
        (freed ((w.log (.event r .errConnFailed rel.responseHeader rel.bodyData)).setClient
          rel.args none) r rel)
  | detached {rel : Relay} (hr : w.relays r = some rel) (ha : rel.isAttached = false) :
      DropOne r w (freed w r rel)

/-- The relays of a list are dropped, in order. -/
inductive DropClients : List RelayId → World → World → Prop
  | nil {w : World} : DropClients [] w w
  | cons {r : RelayId} {rs : List RelayId} {w w1 w' : World} :
      DropOne r w w1 → DropClients rs w1 w' → DropClients (r :: rs) w w'

/-- Where the dropping of one relay can fault. -/
inductive DropFault (r : RelayId) (w : World) (e : Fault) (w' : World) : Prop
  | stale (hr : w.relays r = none) (he : e = .relayFreed r) (ht : w'.trace = w.trace)
  | attached {rel : Relay} (hr : w.relays r = some rel) (ha : rel.isAttached = true)
      (he : e = .clientFreed rel.args ∨ e = .nullSession ∧ rel.session = false)
      (ht : w'.trace = w.trace ++ [.event r .errConnFailed rel.responseHeader rel.bodyData])
  | detached {rel : Relay} (hr : w.relays r = some rel) (ha : rel.isAttached = false)
      (he : e = .nullSession ∧ rel.session = false) (ht : w'.trace = w.trace)

theorem dropClients_spec (rs : List RelayId) :
    wp (dropClients clientRelayCb rs) (fun _ => DropClients rs w)
      (fun e w' => ∃ dropped r rest w1, rs = dropped ++ r :: rest ∧ DropClients dropped w w1 ∧
        DropFault r w1 e w') w := by
  induction rs generalizing w with
  | nil => exact .nil
  | cons r rs ih =>
    -- the rest of the loop, once `r` has been dropped
    have hrest : ∀ w1, DropOne r w w1 → wp (dropClients clientRelayCb rs)
        (fun _ => DropClients (r :: rs) w)
        (fun e w' => ∃ dropped r' rest w1, r :: rs = dropped ++ r' :: rest ∧
          DropClients dropped w w1 ∧ DropFault r' w1 e w') w1 := by
      intro w1 h1
      refine wp_mono ih (fun _ w' h => .cons h1 h) ?_
      rintro e w' ⟨dropped, r', rest, w2, rfl, h2, hf⟩
      exact ⟨r :: dropped, r', rest, w2, rfl, .cons h1 h2, hf⟩
    have hfault : ∀ e w', DropFault r w e w' → ∃ dropped r' rest w1,
        r :: rs = dropped ++ r' :: rest ∧ DropClients dropped w w1 ∧ DropFault r' w1 e w' :=
      fun e w' h => ⟨[], r, rs, w, rfl, .nil, h⟩
    simp only [dropClients, wp_bind, wp_getRelay]
    cases hr : w.relays r with
    | none => exact hfault _ _ (.stale hr rfl rfl)
    | some rel =>
      simp only [wp_ite, wp_bind, wp_relayCallback, hr, clientRelayCb]
      by_cases ha : rel.isAttached = true
      · rw [if_pos ha]
        refine wp_mono (clientHandleRelayErr_spec rel.args) ?_ ?_
        · rintro _ w1 ⟨hc, rfl⟩
          refine wp_mono (relayFree_spec hr) ?_ ?_
          · rintro _ w2 rfl
            exact hrest _ (.attached hr ha hc)
          · rintro e w2 ⟨rfl, he⟩
            exact hfault _ _ (.attached hr ha (Or.inr he) rfl)
        · rintro e w1 ⟨rfl, rfl⟩
          exact hfault _ _ (.attached hr ha (Or.inl rfl) rfl)
      · rw [if_neg ha]
        rw [Bool.not_eq_true] at ha
        refine wp_mono (relayFree_spec hr) ?_ ?_
        · rintro _ w2 rfl
          exact hrest _ (.detached hr ha)
        · rintro e w2 ⟨rfl, he⟩
          exact hfault _ _ (.detached hr ha he rfl)

/-! ### Every event -/

/-- The timer of the relay `r` has fired, and the client is told `what`. -/
def timed (w : World) (r : RelayId) (rel : Relay) (what : RelayWhat) : World :=
  (w.setRelay r { rel with tmrConnectd := false }).log
    (.event r what rel.responseHeader rel.bodyData)

/-- The client for whose parser the event is a callback. -/
def Event.parses : Event → Option ClientId
  | .msgBegin c | .url c _ | .headerField c _ | .headerValue c _ | .headersComplete c _
  | .body c _ | .messageComplete c => some c
  | _ => none

/-- What the handler of an event can leave behind. -/
inductive Handled (w : World) : Event → World → Prop
  | skip {e : Event} : Handled w e w
  | accept : Handled w .accept
      (w.addClient { file := epFileDetect epFileCreate EP_READ (30 * 1000) })
  | msgBegin {c : ClientId} {cl cl' : Client} (hc : w.clients c = some cl)
      (hp : cl.parser = .idle) (h : Begun cl cl') :
      Handled w (.msgBegin c) (w.setClient c (some cl'))
  | reqHeader {e : Event} {c : ClientId} {cl cl' : Client} (hc : w.clients c = some cl)
      (hk : CtlKept cl cl') (hs : SendSideKept cl cl') (he : e.parses = some c) :
      Handled w e (w.setClient c (some cl'))
  | headersComplete {c : ClientId} {method : Bytes} {cl : Client} {w' : World}
      (hc : w.clients c = some cl) (hp : cl.parser = .head) (h : HeadersDone c cl w w') :
      Handled w (.headersComplete c method) w'
  | bodyQueued {c : ClientId} {data : Bytes} {cl : Client} {r : RelayId} {rel : Relay}
      (hc : w.clients c = some cl) (hp : cl.parser = .body) (hr : cl.relay = some r)
      (hrel : w.relays r = some rel) (hst : rel.relayStatus = .connecting) :
      Handled w (.body c data)
        (w.setClient c (some { cl with listRequestBodyBuffer := [⟨cl.reqNo, data⟩] }))
  | bodyWritten {c : ClientId} {data : Bytes} {cl : Client} {r : RelayId} {rel : Relay} {w' : World}
      (hc : w.clients c = some cl) (hp : cl.parser = .body) (hr : cl.relay = some r)
      (hrel : w.relays r = some rel) (hst : rel.relayStatus ≠ .connecting)
      (h : Sent (· ∈ w.closeOnSend) (w.log (.writeBody r c cl.reqNo data)) w') :
      Handled w (.body c data) w'
  | messageComplete {c : ClientId} {cl : Client} {r : RelayId} {w' : World}
      (hc : w.clients c = some cl) (hp : cl.parser = .body) (hr : cl.relay = some r)
      (h : Wrote r (fun rel => { rel with isRequestComplete := true })
        ((w.setClient c (some { cl with parser := .idle })).log (.completeRequest r c cl.reqNo)) w') :
      Handled w (.messageComplete c) w'
  | clientGone {c : ClientId} {w' : World} (h : Dropped c w w') : Handled w (.clientGone c) w'
  | writable {c : ClientId} {cl : Client} {w' : World} (hc : w.clients c = some cl)
      (hm : wantsWrite cl.file.mask = true) (h : WritableDone c w w') : Handled w (.writable c) w'
  | timerConnected {r : RelayId} {rel : Relay} {cl : Client} {r1 : RelayId} {h : Header}
      {rel1 : Relay} {w1 w' : World} (hr : w.relays r = some rel) (ht : rel.tmrConnectd = true)
      (hs : w.sSession = true) (h1 : Submits rel.args cl r1 h rel1 (timed w r rel .connected) w1)
      (h2 : BodiesWritten rel.args r1 cl.listRequestBodyBuffer w1 w') : Handled w (.timer r) w'
  | timerFailed {r : RelayId} {rel : Relay} (hr : w.relays r = some rel)
      (ht : rel.tmrConnectd = true) (hs : w.sSession = false) (hc : w.clients rel.args ≠ none) :
      Handled w (.timer r) ((timed w r rel .errConnFailed).setClient rel.args none)
  | tunnelConnected (ht : w.tunnel = .connecting) :
      Handled w .tunnelConnected (w.setTunnel .connected true)
  | tunnelFailed {w' : World} (ht : w.tunnel ≠ .closed)
      (h : DropClients w.sListRelays (w.setTunnel .closed w.sSession) w') :
      Handled w .tunnelFailed (w'.setTunnel .closed false)
  | recvHeader {s : StreamId} {cat : HeadersCategory} {name value : Bytes} {st : Stream}
      {r : RelayId} {rel : Relay} (ht : w.tunnel = .connected) (hs : w.streams s = some st)
      (hu : st.userData = some r) (hr : w.relays r = some rel) (hdr : Header) :
      Handled w (.recvHeader s cat name value) (w.setRelay r { rel with responseHeader := hdr })
  | frame {s : StreamId} {frame : Frame} {st : Stream} {w1 w' : World}
      (ht : w.tunnel = .connected) (hs : w.streams s = some st) (hopen : (st.shutRd || st.closing) = false)
      (h1 : Reported w st.userData frame w1)
      (h2 : if frame.endStream then ShutRd s w1 w' else w' = w1) :
      Handled w (.recvFrame s frame) w'
  | rst {s : StreamId} {st : Stream} {w1 w' : World} (ht : w.tunnel = .connected)
      (hs : w.streams s = some st) (h1 : RstReported w st.userData w1) (h2 : Sent (· = s) w1 w')
      (h3 : (∀ st, w1.streams s = some st → st.userData = none) → w' = w1.removeStream s) :
      Handled w (.recvFrame s .rstStream) w'
  | recvData {s : StreamId} {data : Bytes} {st : Stream} {w' : World} (ht : w.tunnel = .connected)
      (hs : w.streams s = some st) (hopen : (st.shutRd || st.closing) = false) (h : ChunkDone w s st data w') :
      Handled w (.recvData s data) w'
  | protocolError {s : StreamId} {shutRd : Bool} {st : Stream} {w1 w' : World}
      (ht : w.tunnel = .connected) (hs : w.streams s = some st)
      (h1 : Sent (· = s) w w1) (h2 : if shutRd then ShutRd s w1 w' else w' = w1) :
      Handled w (.protocolError s shutRd) w'
  | goaway {sids : List StreamId} {w' : World} (ht : w.tunnel = .connected)
      (h : Sent (· ∈ sids) w.setGoaway w') (hq : w'.closeOnSend = w.closeOnSend) :
      Handled w (.goaway sids) w'
  | connectionError (ht : w.tunnel = .connected) : Handled w .connectionError w.setGoawayTerm
  | sessionSend {w' : World} (ht : w.tunnel = .connected) (h : Sent (· ∈ w.closeOnSend) w w') :
      Handled w .sessionSend w'

/-- Neither a `NULL` nor a freed relay nor a `NULL` session is to blame. -/
def Fault.plain (e : Fault) : Prop :=
  (∀ r, e ≠ .relayFreed r) ∧ (∀ op, e ≠ .nullRelay op) ∧ e ≠ .nullRelaySys ∧ e ≠ .nullSession

/-- Where the handler of an event can fault. -/
inductive HandleFault (w : World) : Event → Fault → World → Prop
  | plain {e : Event} {err : Fault} {w' : World} (hp : err.plain) (ht : w'.trace = w.trace) :
      HandleFault w e err w'
  | headers {c : ClientId} {method : Bytes} {cl : Client} {h : Header} {err : Fault} {w' : World}
      (hc : w.clients c = some cl) (hp : cl.parser = .head) (hh : reqHeader cl = some h)
      (he : err.plain) (ht : w'.trace = w.trace ++ [.headersComplete c h.id]) :
      HandleFault w (.headersComplete c method) err w'
  | body {c : ClientId} {data : Bytes} {cl : Client} {err : Fault} {w' : World}
      (hc : w.clients c = some cl) (hp : cl.parser = .body) (he : ClientFault w c err)
      (ht : w'.trace = w.trace) : HandleFault w (.body c data) err w'
  | bodyWrite {c : ClientId} {data : Bytes} {cl : Client} {r : RelayId} {rel : Relay} {err : Fault}
      {w' : World} (hc : w.clients c = some cl) (hp : cl.parser = .body) (hr : cl.relay = some r)
      (hrel : w.relays r = some rel) (hst : rel.relayStatus ≠ .connecting)
      (he : RelayFault w r err) (ht : w'.trace = w.trace ++ [.writeBody r c cl.reqNo data]) :
      HandleFault w (.body c data) err w'
  | messageComplete {c : ClientId} {cl : Client} {err : Fault} {w' : World}
      (hc : w.clients c = some cl) (hp : cl.parser = .body) (he : ClientFault w c err)
      (ht : w'.trace = w.trace) : HandleFault w (.messageComplete c) err w'
  | clientGone {c : ClientId} {err : Fault} {w' : World} (he : SocketFault w c err)
      (hne : ∀ op, err ≠ .nullRelay op) (hsys : err = .nullRelaySys →
        ∃ cl, w.clients c = some cl ∧ cl.relay ≠ none ∧ cl.relaySys = false)
      (ht : FaultTrace w w') : HandleFault w (.clientGone c) err w'
  | writable {c : ClientId} {cl : Client} {err : Fault} {w' : World} (hc : w.clients c = some cl)
      (hm : wantsWrite cl.file.mask = true) (he : SocketFault w c err) (ht : FaultTrace w w') :
      HandleFault w (.writable c) err w'
  | timerConnected {r : RelayId} {rel : Relay} {err : Fault} {w' : World}
      (hr : w.relays r = some rel) (htmr : rel.tmrConnectd = true) (hs : w.sSession = true)
      (h : ConnectFault rel.args (timed w r rel .connected) err w') : HandleFault w (.timer r) err w'
  | timerFailed {r : RelayId} {rel : Relay} {err : Fault} {w' : World}
      (hr : w.relays r = some rel) (htmr : rel.tmrConnectd = true) (he : err.plain)
      (ht : w'.trace = (timed w r rel .errConnFailed).trace) : HandleFault w (.timer r) err w'
  | tunnelFailed {dropped rest : List RelayId} {r : RelayId} {err : Fault} {w1 w' : World}
      (ht : w.tunnel ≠ .closed) (hrs : w.sListRelays = dropped ++ r :: rest)
      (h1 : DropClients dropped (w.setTunnel .closed w.sSession) w1)
      (h2 : DropFault r w1 err w') : HandleFault w .tunnelFailed err w'
  | stale {e : Event} {s : StreamId} {st : Stream} {r : RelayId} {err : Fault} {w' : World}
      (ht : w.tunnel = .connected) (hs : w.streams s = some st) (hu : st.userData = some r)
      (hr : w.relays r = none) (he : err = .relayFreed r) (htr : w'.trace = w.trace) :
      HandleFault w e err w'
  | frame {s : StreamId} {frame : Frame} {st : Stream} {r : RelayId} {rel : Relay} {err : Fault}
      {w' : World} (ht : w.tunnel = .connected) (hs : w.streams s = some st)
      (hopen : (st.shutRd || st.closing) = false) (hu : st.userData = some r)
      (hr : w.relays r = some rel) (ha : rel.isAttached = true) (hcb : frame.callsBack = true)
      (h : HeadersFault r w err w') : HandleFault w (.recvFrame s frame) err w'
  | frameEnd {s : StreamId} {frame : Frame} {st : Stream} {err : Fault} {w1 w' : World}
      (ht : w.tunnel = .connected) (hs : w.streams s = some st) (hopen : (st.shutRd || st.closing) = false)
      (h1 : Reported w st.userData frame w1) (hend : frame.endStream = true)
      (he : SendFault (w1.mapStream s ({ · with shutRd := true })) err)
      (htr : w'.trace = w1.trace) : HandleFault w (.recvFrame s frame) err w'
  | rst {s : StreamId} {st : Stream} {r : RelayId} {rel : Relay} {err : Fault} {w' : World}
      (ht : w.tunnel = .connected) (hs : w.streams s = some st) (hu : st.userData = some r)
      (hr : w.relays r = some rel) (ha : rel.isAttached = true)
      (he : err = .clientFreed rel.args ∨ err = .nullSession ∧ rel.session = false)
      (htr : w'.trace = w.trace ++ [.event r .errConnFailed rel.responseHeader rel.bodyData]) :
      HandleFault w (.recvFrame s .rstStream) err w'
  | rstClose {s : StreamId} {st : Stream} {err : Fault} {w1 w' : World} (ht : w.tunnel = .connected)
      (hs : w.streams s = some st) (h1 : RstReported w st.userData w1) (he : SendFault w1 err)
      (hne : ¬ ∀ st, w1.streams s = some st → st.userData = none) (htr : w'.trace = w1.trace) :
      HandleFault w (.recvFrame s .rstStream) err w'
  | recvData {s : StreamId} {data : Bytes} {st : Stream} {err : Fault} {w' : World}
      (ht : w.tunnel = .connected) (hs : w.streams s = some st) (hopen : (st.shutRd || st.closing) = false)
      (h : ChunkFault w s st data err w') : HandleFault w (.recvData s data) err w'
  | send {e : Event} {err : Fault} {w' : World} (ht : w.tunnel = .connected) (he : SendFault w err)
      (htr : w'.trace = w.trace) : HandleFault w e err w'

theorem ParserFault.plain {e : Fault} (h : ParserFault e) : e.plain := by
  rcases h with rfl | rfl <;> exact ⟨by simp, by simp, by simp, by simp⟩

/-- The events of a client. -/
theorem wp_onClient (c : ClientId) (possible : Client → Bool) (f : SysM Unit)
    {Q : Unit → World → Prop} {E : Fault → World → Prop} (hskip : Q () w)
    (h : ∀ cl, w.clients c = some cl → possible cl = true → wp f Q E w) :
    wp (onClient c possible f) Q E w := by
  simp only [onClient, wp_bind, wp_get]
  cases hc : w.clients c with
  | none => exact hskip
  | some cl =>
    simp only [wp_ite, wp_pure]
    split_ifs with hp
    · exact h cl hc hp
    · exact hskip

theorem wp_onTunnel (f : SysM Unit) {Q : Unit → World → Prop} {E : Fault → World → Prop}
    (hskip : Q () w) (h : w.tunnel = .connected → wp f Q E w) : wp (onTunnel f) Q E w := by
  simp only [onTunnel, wp_bind, wp_get, wp_ite, wp_pure]
  split_ifs with ht
  · exact h ht
  · exact hskip

/-- The handler of `e` does what `Handled` and `HandleFault` say. -/
abbrev HandleSpec (w : World) (e : Event) : Prop :=
  wp (handle e) (fun _ => Handled w e) (HandleFault w e) w

/-- The three callbacks that only change a header. -/
theorem updateReqHeader_handled {e : Event} {c : ClientId} {cl : Client}
    {f : Header → Option Header} (hf : ∀ h h', f h = some h' → h'.id = h.id)
    (hc : w.clients c = some cl) (he : e.parses = some c) :
    wp (updateReqHeader c f) (fun _ => Handled w e) (HandleFault w e) w := by
  refine wp_mono (updateReqHeader_spec hf hc) ?_ ?_
  · rintro _ w' ⟨cl', hk, hs, rfl⟩
    exact .reqHeader hc hk hs he
  · rintro err w' ⟨rfl, hpf⟩
    exact .plain hpf.plain rfl

theorem handle_body (c : ClientId) (data : Bytes) : HandleSpec w (.body c data) := by
  refine wp_onClient c _ _ .skip fun cl hc hp => ?_
  rw [decide_eq_true_eq] at hp
  simp only [clientBodycb, wp_bind, wp_getClient, hc]
  refine wp_mono (clientRelay_spec _ hc) ?_ ?_
  · rintro r w ⟨rfl, _, hr⟩
    simp only [relayGetStatus, wp_bind, wp_getRelay, wp_pure]
    cases hrel : w.relays r with
    | none => exact .body hc hp ⟨cl, r, hc, hr, Or.inl hrel⟩ rfl
    | some rel =>
      simp only [wp_ite, wp_throw, wp_putClient, wp_bind, wp_note]
      have hlt : rel.relayStatus.toNat < RelayStatus.connected.toNat ↔
          rel.relayStatus = .connecting := by
        cases rel.relayStatus <;> decide
      split_ifs with hst hd
      · exact .plain ⟨by simp, by simp, by simp, by simp⟩ rfl
      · exact .bodyQueued hc hp hr hrel (hlt.mp hst)
      · refine wp_mono (relayWriteBody_spec r data) ?_ ?_
        · exact fun _ w' h => .bodyWritten hc hp hr hrel (fun h' => hst (hlt.mpr h')) h
        · exact fun err w' h => .bodyWrite hc hp hr hrel (fun h' => hst (hlt.mpr h')) h.2 h.1.trace
  · rintro err w' ⟨rfl, he⟩
    exact .body hc hp he rfl

theorem handle_messageComplete (c : ClientId) : HandleSpec w (.messageComplete c) := by
  refine wp_onClient c _ _ .skip fun cl hc hp => ?_
  rw [decide_eq_true_eq] at hp
  simp only [clientMessageCompletecb, wp_bind, wp_getClient, hc, wp_putClient, wp_clientRelay]
  split_ifs with hsys
  · cases hr : cl.relay with
    | none => exact .messageComplete hc hp ⟨cl, hc, hr⟩ rfl
    | some r =>
      simp only [wp_note, relayCompleteRequest]
      refine wp_mono (writeRelay_spec r _) (fun _ w' h => .messageComplete hc hp hr ?_)
        (fun _ _ => id)
      simpa only [hr] using h
  · exact .messageComplete hc hp ⟨cl, hc, by simpa using hsys⟩ rfl

theorem handle_timer (r : RelayId) : HandleSpec w (.timer r) := by
  simp only [HandleSpec, handle, wp_bind, wp_get]
  cases hr : w.relays r with
  | none => exact .skip
  | some rel =>
    simp only [wp_ite, wp_bind, wp_putRelay, wp_pure, relayTmrcb, wp_get, wp_relayCallback,
      World.setRelay_relays, Function.update_self, clientRelayCb]
    split_ifs with htmr hs
    · refine wp_mono (clientHandleRelayConnected_spec (w := timed w r rel .connected) rel.args) ?_ ?_
      · rintro _ w' ⟨cl, r1, h, rel1, w1, h1, h2⟩
        exact .timerConnected hr htmr hs h1 h2
      · exact fun err w' h => .timerConnected hr htmr hs h
    · rw [Bool.not_eq_true] at hs
      refine wp_mono (clientHandleRelayErr_spec (w := timed w r rel .errConnFailed) rel.args) ?_ ?_
      · rintro _ w' ⟨hc, rfl⟩
        exact .timerFailed hr htmr hs hc
      · rintro err w' ⟨rfl, rfl⟩
        exact .timerFailed hr htmr ⟨by simp, by simp, by simp, by simp⟩ rfl
    · exact .skip

theorem handle_tunnelFailed : HandleSpec w .tunnelFailed := by
  simp only [HandleSpec, handle, wp_bind, wp_get, wp_ite, wp_modify, dropAllClients, wp_pure]
  split_ifs with ht
  · refine wp_mono (dropClients_spec _) (fun _ w' h => .tunnelFailed ht h) ?_
    rintro err w' ⟨dropped, r, rest, w1, hrs, h1, h2⟩
    exact .tunnelFailed ht hrs h1 h2
  · exact .skip

theorem handle_recvHeader (s : StreamId) (cat : HeadersCategory) (name value : Bytes) :
    HandleSpec w (.recvHeader s cat name value) := by
  refine wp_onTunnel _ .skip fun ht => ?_
  simp only [onHeader, wp_bind, wp_get]
  cases hs : w.streams s with
  | none => exact .skip
  | some st =>
    rw [wp_ite]
    dsimp only
    by_cases hopen : (st.shutRd || st.closing) = true
    · rw [if_pos hopen]
      exact .skip
    rw [if_neg hopen]
    unfold relayOnHeader
    rw [wp_ite]
    dsimp only
    by_cases hlen : (strncpy name 1024).length = 1024 ∨ (strncpy value 4096).length = 4096
    · rw [if_pos hlen]
      exact .plain ⟨by simp, by simp, by simp, by simp⟩ rfl
    rw [if_neg hlen]
    cases cat with
    | headers => exact .skip
    | response =>
      cases hu : st.userData with
      | none => exact .skip
      | some r =>
        simp only [wp_bind, wp_getRelay]
        cases hr : w.relays r with
        | none => exact .stale ht hs hu hr rfl rfl
        | some rel =>
          simp only [wp_ite, wp_putRelay]
          split_ifs <;> exact .recvHeader ht hs hu hr _

theorem handle_recvFrame (s : StreamId) (frame : Frame) : HandleSpec w (.recvFrame s frame) := by
  refine wp_onTunnel _ .skip fun ht => ?_
  simp only [onFrame, wp_bind, wp_get]
  cases hs : w.streams s with
  | none => exact .skip
  | some st =>
    -- frames with flags: they are reported, then `END_STREAM` takes effect
    have hflags : ∀ flags, frame = .data flags ∨ frame = .headers flags →
        wp (if st.shutRd || st.closing then pure ()
          else do
            relaySessionOnFrameRecv clientRelayCb st.userData frame
            if isEndStream flags then shutdownRd s else pure ())
          (fun _ => Handled w (.recvFrame s frame)) (HandleFault w (.recvFrame s frame)) w := by
      intro flags hf
      have hend : frame.endStream = isEndStream flags := by
        rcases hf with rfl | rfl <;> rfl
      have hne : frame ≠ .rstStream := by
        rcases hf with rfl | rfl <;> simp
      rw [wp_ite]
      dsimp only
      by_cases hopen : (st.shutRd || st.closing) = true
      · rw [if_pos hopen]
        exact .skip
      · rw [if_neg hopen, wp_bind]
        rw [Bool.not_eq_true] at hopen
        refine wp_mono (relaySessionOnFrameRecv_spec _ _ hne) ?_ ?_
        · intro _ w1 h1
          rw [wp_ite]
          dsimp only
          split_ifs with hes
          · refine wp_mono (shutdownRd_spec s) ?_ ?_
            · exact fun _ w' h2 => .frame ht hs hopen h1 (by rw [if_pos (hend.trans hes)]; exact h2)
            · exact fun err w' h => .frameEnd ht hs hopen h1 (hend.trans hes) h.2 h.1
          · refine .frame ht hs hopen h1 ?_
            rw [if_neg]
            rw [hend]
            exact hes
        · intro err w' h
          cases h with
          | stale hu hr he htr => exact .stale ht hs hu hr he htr
          | headers hu hr ha hcb h => exact .frame ht hs hopen hu hr ha hcb h
    cases frame with
    | data flags => exact hflags flags (Or.inl rfl)
    | headers flags => exact hflags flags (Or.inr rfl)
    | rstStream =>
      simp only [wp_bind]
      refine wp_mono (relaySessionOnRst_spec _) ?_ ?_
      · intro _ w1 h1
        have hclose := closeStream_spec (w := w1) (D := (· = s)) s fun _ _ => Or.inr rfl
        by_cases hnone : ∀ st, w1.streams s = some st → st.userData = none
        · have hunlinks := closeStream_unlinks (E := fun _ _ => False) hnone
          exact wp_mono (wp_and hclose hunlinks) (fun _ w' h2 => .rst ht hs h1 h2.1 fun _ => h2.2)
            (fun err w' h => h.2.elim)
        · refine wp_mono hclose (fun _ w' h2 => .rst ht hs h1 h2 fun hall => absurd hall hnone) ?_
          rintro err w' ⟨rfl, he⟩
          exact .rstClose ht hs h1 he hnone rfl
      · intro err w' h
        cases h with
        | stale hu hr he htr => exact .stale ht hs hu hr he htr
        | dropping hu hr ha he htr => exact .rst ht hs hu hr ha he htr
    | other =>
      simp only [relaySessionOnFrameRecv]
      cases hu : st.userData with
      | none => exact .skip
      | some r =>
        simp only [wp_bind, wp_getRelay]
        cases hr : w.relays r with
        | none => exact .stale ht hs hu hr rfl rfl
        | some rel =>
          simp only [wp_ite, wp_pure]
          split_ifs <;> exact .skip

theorem handle_recvData (s : StreamId) (data : Bytes) : HandleSpec w (.recvData s data) := by
  refine wp_onTunnel _ .skip fun ht => ?_
  simp only [onDataChunk, wp_bind, wp_get]
  cases hs : w.streams s with
  | none => exact .skip
  | some st =>
    simp only [wp_ite, wp_pure, wp_bind, wp_modify]
    split_ifs with hopen
    · exact .skip
    · rw [Bool.not_eq_true] at hopen
      exact wp_mono (relayOnDataChunkRecv_spec data hs) (fun _ w' h => .recvData ht hs hopen h)
        (fun err w' h => .recvData ht hs hopen h)

theorem handle_protocolError (s : StreamId) (shutRd : Bool) :
    HandleSpec w (.protocolError s shutRd) := by
  refine wp_onTunnel _ .skip fun ht => ?_
  simp only [onProtocolError, wp_bind, wp_get]
  cases hs : w.streams s with
  | none => exact .skip
  | some st =>
    simp only [wp_bind, wp_ite, wp_pure]
    refine wp_mono (addRstStream_spec s (E := fun _ _ => False)) ?_ (fun _ _ h => h.elim)
    intro _ w1 h1
    split_ifs with hsh
    · refine wp_mono (shutdownRd_spec s) ?_ ?_
      · exact fun _ w' h2 => .protocolError ht hs h1 (by rw [if_pos hsh]; exact h2)
      · rintro err w' ⟨htr, he⟩
        have he1 : SendFault w1 err :=
          he.of_mapStream (f := ({ · with shutRd := true })) fun _ => ⟨rfl, rfl⟩
        exact .send ht (he1.of_sent h1) (htr.trans h1.trace)
    · exact .protocolError ht hs h1 (by rw [if_neg hsh])

/-- **What one event can do.** -/
theorem handle_spec (w : World) (e : Event) : HandleSpec w e := by
  cases e with
  | accept => exact .accept
  | msgBegin c =>
    refine wp_onClient c _ _ .skip fun cl hc hp => ?_
    rw [decide_eq_true_eq] at hp
    refine wp_mono (clientMsgBegin_spec hc) ?_ ?_
    · rintro _ w' ⟨cl', h, rfl⟩
      exact .msgBegin hc hp h
    · rintro err w' ⟨rfl, rfl⟩
      exact .plain ⟨by simp, by simp, by simp, by simp⟩ rfl
  | url c data =>
    refine wp_onClient c _ _ .skip fun cl hc _ => updateReqHeader_handled ?_ hc rfl
    rintro h h' ⟨rfl⟩
    rfl
  | headerField c data =>
    exact wp_onClient c _ _ .skip fun cl hc _ =>
      updateReqHeader_handled (fun _ _ => headerAppendField_id) hc rfl
  | headerValue c data =>
    refine wp_onClient c _ _ .skip fun cl hc _ => updateReqHeader_handled ?_ hc rfl
    rintro h h' ⟨rfl⟩
    rfl
  | headersComplete c method =>
    refine wp_onClient c _ _ .skip fun cl hc hp => ?_
    rw [decide_eq_true_eq] at hp
    refine wp_mono (clientHeadersCompletecb_spec hc method)
      (fun _ w' h => .headersComplete hc hp h) ?_
    rintro err w' ⟨he, htr | ⟨h, hh, htr⟩⟩
    · exact .plain he.plain htr
    · exact .headers hc hp hh he.plain htr
  | body c data => exact handle_body c data
  | messageComplete c => exact handle_messageComplete c
  | clientGone c =>
    refine wp_onClient c _ _ .skip fun cl hc _ => ?_
    exact wp_mono (clientDrop_spec c) (fun _ w' h => .clientGone h)
      (fun err w' h => .clientGone h.2.1 h.2.2.1 h.2.2.2 h.1)
  | writable c =>
    refine wp_onClient c _ _ .skip fun cl hc hm => ?_
    exact wp_mono (clientWritecb_spec c) (fun _ w' h => .writable hc hm h)
      (fun err w' h => .writable hc hm h.2 h.1)
  | timer r => exact handle_timer r
  | tunnelConnected =>
    simp only [HandleSpec, handle, wp_bind, wp_get, wp_ite, wp_modify, wp_pure]
    split_ifs with ht
    · exact .tunnelConnected ht
    · exact .skip
  | tunnelFailed => exact handle_tunnelFailed
  | recvHeader s cat name value => exact handle_recvHeader s cat name value
  | recvFrame s frame => exact handle_recvFrame s frame
  | recvData s data => exact handle_recvData s data
  | protocolError s shutRd => exact handle_protocolError s shutRd
  | goaway sids =>
    -- closing streams queues no others
    refine wp_onTunnel _ .skip fun ht => ?_
    simp only [wp_bind, wp_modify]
    exact wp_mono (wp_and (closeStreams_spec (D := (· ∈ sids)) sids fun _ => id)
        (closeStreams_closeOnSend sids))
      (fun _ w' h => .goaway ht h.1 h.2) (fun err w' h => .send ht h.1.2 h.1.1.trace)
  | connectionError =>
    refine wp_onTunnel _ .skip fun ht => ?_
    simp only [wp_modify]
    exact .connectionError ht
  | sessionSend =>
    refine wp_onTunnel _ .skip fun ht => ?_
    exact wp_mono (sessionSend_spec rfl) (fun _ w' h => .sessionSend ht h)
      (fun err w' h => .send ht h.2 h.1.trace)

/-- The world in which the event of an input is handled. -/
def prepared (w : World) (i : Input) : World := (w.setSends i.sends).setPulls i.pulls

/-- **What one step can do.** -/
theorem step_spec (i : Input) {Q : World → Prop} {E : Fault → World → Prop}
    (hQ : ∀ w', Handled (prepared w i) i.event w' → Q w')
    (hE : ∀ err w', HandleFault (prepared w i) i.event err w' → E err w') :
    wp (step i) (fun _ => Q) E w := by
  simp only [step, wp_bind, wp_modify]
  exact wp_mono (handle_spec (prepared w i) i.event) (fun _ => hQ) hE

end H2ClientProxy
