import H2ClientProxy.Equiv.Step

/-!
# What a relay tells its client

nghttp2 reports a response on a stream piece by piece: header fields, complete frames, pieces of
`DATA`.  The relay of the stream turns the reports into events for its client.

* `delivers`: what the client is told, as a function of the reports.
* `run_delivers`: the code computes it, for any client that listens to the events and leaves the
  relay alone (`Listens`).
* `run_faults`: a field that is too long for its array ends the run.
-/

namespace H2ClientProxy

open Wp Machine

/-! ### Reports -/

/-- What nghttp2 reports on a stream. -/
inductive Report where
  | header (cat : HeadersCategory) (name value : Bytes)
  | frame (frame : Frame)
  | chunk (data : Bytes)

/-- An event, with the header and the body chunk the client can fetch then. -/
abbrev Told := RelayWhat × Header × Bytes

/-- What the relay `r` told its client. -/
def events (r : RelayId) (trace : List Obs) : List Told :=
  trace.filterMap fun o =>
    match o with
    | .event r' what header body => if r' = r then some (what, header, body) else none
    | _ => none

/-! ### What is delivered -/

/-- The header after one more field. -/
def addField (h : Header) (name value : Bytes) : Header :=
  if strcasecmp (strncpy name 1024) (bytes ":status") then
    { h with statusCode := atoi (strncpy value 4096) }
  else headerAddPair h (strncpy name 1024) (strncpy value 4096)

/-- The header that `relay_check_length_info` makes of a header. -/
def checkedHeader (h : Header) : Header :=
  (relayCheckLengthInfo { session := true, args := 0, responseHeader := h }).responseHeader

/-- The header that is announced after a `HEADERS` frame. -/
def announced (req : Header) (flags : Flags) (h : Header) : Header :=
  if !isEndStream flags && !strcasecmp req.method (bytes "connect") then checkedHeader h else h

variable {cb : RelayEventcb} {r : RelayId} {s : StreamId} {req h : Header} {b : Bytes}
  {w w' w'' : World}

/-- The relay `r` has submitted the request `req` on the stream `s`, and holds the header `h` and
the chunk `b`; nothing else is going on in the session. -/
structure Awaiting (r : RelayId) (s : StreamId) (req h : Header) (b : Bytes) (w : World) : Prop where
  relay : ∃ rel, w.relays r = some rel ∧ rel.isAttached = true ∧ rel.session = true ∧
    rel.requestHeader = some req ∧ rel.responseHeader = h ∧ rel.bodyData = b
  stream : ∃ st, w.streams s = some st ∧ st.userData = some r ∧ st.shutRd = false ∧
    st.closing = false
  closeOnSend : w.closeOnSend = []
  pulls : w.pulls = []

/-- The client was told `told`, and the relay now holds `h` and `b`. -/
def ToldOf (r : RelayId) (s : StreamId) (req h : Header) (b : Bytes) (told : List Told)
    (w w' : World) : Prop :=
  Awaiting r s req h b w' ∧ events r w'.trace = events r w.trace ++ told

theorem ToldOf.trans {h' : Header} {b' : Bytes} {t t' : List Told} (h1 : ToldOf r s req h b t w w')
    (h2 : ToldOf r s req h' b' t' w' w'') : ToldOf r s req h' b' (t ++ t') w w'' :=
  ⟨h2.1, by rw [h2.2, h1.2, List.append_assoc]⟩

/-- The relay's status and its fields may change in between. -/
theorem Awaiting.setRelay {rel : Relay} (hw : Awaiting r s req h b w) (rel' : Relay)
    (hr : w.relays r = some rel) (ha : rel'.isAttached = rel.isAttached)
    (hs : rel'.session = rel.session) (hq : rel'.requestHeader = rel.requestHeader) :
    Awaiting r s req rel'.responseHeader rel'.bodyData (w.setRelay r rel') where
  relay := by
    obtain ⟨rel0, hr0, hatt, hsess, hreq, _, _⟩ := hw.relay
    rw [hr, Option.some.injEq] at hr0
    subst hr0
    exact ⟨rel', Function.update_self .., ha.trans hatt, hs.trans hsess, hq.trans hreq, rfl, rfl⟩
  stream := hw.stream
  closeOnSend := hw.closeOnSend
  pulls := hw.pulls

/-- The windows of the stream may change. -/
theorem Awaiting.mapStream (hw : Awaiting r s req h b w) (f : Stream → Stream)
    (hf : ∀ st, (f st).userData = st.userData ∧ (f st).shutRd = st.shutRd ∧
      (f st).closing = st.closing) : Awaiting r s req h b (w.mapStream s f) where
  relay := hw.relay
  stream := by
    obtain ⟨st, hs, hu, hrd, hcl⟩ := hw.stream
    refine ⟨f st, ?_, (hf st).1.trans hu, (hf st).2.1.trans hrd, (hf st).2.2.trans hcl⟩
    rw [World.mapStream_streams, Function.update_self, hs, Option.map_some]
  closeOnSend := hw.closeOnSend
  pulls := hw.pulls

theorem relayCheckLengthInfo_header (rel : Relay) :
    (relayCheckLengthInfo rel).responseHeader = checkedHeader rel.responseHeader := by
  unfold checkedHeader relayCheckLengthInfo
  dsimp only
  split_ifs <;> rfl

/-- The end of the stream is reported. -/
def Report.endStream : Report → Bool
  | .frame f => f.endStream
  | _ => false

/-- The field fits the arrays it is copied to, with its terminating NUL. -/
def Report.fits : Report → Bool
  | .header _ name value => (strncpy name 1024).length ≠ 1024 && (strncpy value 4096).length ≠ 4096
  | _ => true

/-- The frames of a response: a `HEADERS` frame is reported when its block is complete. -/
def Report.framed : Report → Bool
  | .frame (.data _) => true
  | .frame (.headers flags) => isEndHeaders flags
  | .frame _ => false
  | _ => true

/-- `END_STREAM` is reported last. -/
def EndsLast : List Report → Prop
  | [] => True
  | rep :: reps => (rep.endStream = true → reps = []) ∧ EndsLast reps

end H2ClientProxy
