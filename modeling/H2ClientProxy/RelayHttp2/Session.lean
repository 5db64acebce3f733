import H2ClientProxy.World

/-!
# The nghttp2 session of the tunnel, and `relay_free`

The part of nghttp2 that `relay_http2.c` relies on.  A stream is open from `nghttp2_submit_request`
until nghttp2 closes it: when both sides have ended, when a `RST_STREAM` is received or sent, when
a `GOAWAY` or a protocol error disposes of it, or when its request is refused because a `GOAWAY`
was received or is being sent.  Closing calls `relay_on_stream_close_callback`, which frees the relay;
because `nghttp2_session_send` closes streams, every function that sends can free relays.  After a
connection error nghttp2 sends no frames of streams, and so it closes none for a `RST_STREAM` of its own.

Which data providers a call of `nghttp2_session_send` asks, and for how many bytes, depends on flow
control and priorities; it is read off `World.pulls`.  A request is taken to go out, or to be refused, at
the next `nghttp2_session_send`; one that waits for the peer's limit of concurrent streams counts as
sent, and `Event.goaway` closes it if a `GOAWAY` overtakes it.  nghttp2's limit for the length of a
header block, beyond which no stream is opened, is not modelled.
-/

namespace H2ClientProxy

open SendQueue

/-! ### Streams -/

/-- `nghttp2_session_set_stream_user_data`. -/
def setStreamUserData (session : Bool) (sid : StreamId) (ptr : Option RelayId) : SysM Unit := do
  needSession session
  modify (·.mapStream sid ({ · with userData := ptr }))

/-- `nghttp2_session_get_stream_user_data`. -/
def getStreamUserData (w : World) (sid : StreamId) : Option RelayId :=
  (w.streams sid).bind Stream.userData

/-- `nghttp2_session_get_stream_effective_recv_data_length`: `-1` for a stream that is not open. -/
def getRecvLen (session : Bool) (sid : StreamId) : SysM ℤ := do
  needSession session
  return (((← get).streams sid).map fun st => (st.recvLen : ℤ)).getD (-1)

/-- `nghttp2_submit_window_update` for a stream. -/
def submitWindowUpdate (session : Bool) (sid : StreamId) (increment : ℕ) : SysM Unit := do
  needSession session
  modify (·.mapStream sid fun st => { st with recvLen := st.recvLen - increment })

/-- `nghttp2_session_add_rst_stream`: one `RST_STREAM` per stream is queued.  After a connection error it
will not be sent. -/
def addRstStream (sid : StreamId) : SysM Unit := do
  let w ← get
  if (w.streams sid).any Stream.closing then pure ()
  else
    modify (·.mapStream sid ({ · with closing := true }))
    if w.goawayTerm then pure () else modify (·.setCloseOnSend (w.closeOnSend ++ [sid]))

/-- `nghttp2_submit_rst_stream`: stream 0 is refused before the session is looked at. -/
def submitRstStream (session : Bool) (sid : StreamId) : SysM Unit := do
  if sid = 0 then pure ()
  else
    needSession session
    addRstStream sid

/-- `nghttp2_session_resume_data`. -/
def resumeData (session : Bool) (sid : StreamId) : SysM Unit := do
  needSession session
  modify (·.mapStream sid ({ · with deferred := false }))

/-- The stream that `nghttp2_submit_request` will open: it carries the relay as its user data, and
without a data provider the request `HEADERS` end our side of it. -/
def requestStream (provider : Bool) (relay : RelayId) (refused : Bool) : Stream :=
  { userData := some relay, provider := if provider then some relay else none
    shutWr := !provider, closing := refused }

/-- `nghttp2_submit_request`.  After a `GOAWAY` of either side the `HEADERS` are refused when they are to
be sent, and nghttp2 closes the stream then. -/
def submitRequest (session : Bool) (provider : Bool) (relay : RelayId) : SysM StreamId := do
  needSession session
  let w ← get
  modify (·.addStream (requestStream provider relay w.refusesRequests))
  if w.refusesRequests then modify (·.setCloseOnSend (w.closeOnSend ++ [w.nextStreamId])) else pure ()
  return w.nextStreamId

/-! ### Freeing a relay, closing a stream -/

/-- `relay_free`; the connect timer dies with the relay. -/
def relayFree (r : RelayId) : SysM Unit := do
  let rel ← getRelay r
  setStreamUserData rel.session rel.streamId none
  modify (·.removeRelay r)

/-- `relay_on_stream_close_callback`. -/
def relayOnStreamClose (userData : Option RelayId) : SysM Unit :=
  match userData with
  | some r => relayFree r
  | none => pure ()

/-- `nghttp2_session_close_stream`: the callback runs before the stream is unlinked. -/
def closeStream (sid : StreamId) : SysM Unit := do
  relayOnStreamClose (getStreamUserData (← get) sid)
  modify (·.removeStream sid)

/-- `END_STREAM` was received: `nghttp2_stream_shutdown(stream, NGHTTP2_SHUT_RD)` and
`nghttp2_session_close_stream_if_shut_rdwr`. -/
def shutdownRd (sid : StreamId) : SysM Unit := do
  let w ← get
  modify (·.mapStream sid ({ · with shutRd := true }))
  if (w.streams sid).any Stream.shutWr then closeStream sid else pure ()

/-! ### The request body -/

/-- The copying loop of `relay_data_source_read_callback`: the bytes copied into a buffer with room
for `left`, and what is left of `list_write_buf`. -/
def copyOut : List (Buf UInt8) → ℕ → Bytes × List (Buf UInt8)
  | [], _ => ([], [])
  | pos :: n, left =>
    let lenCpy := min left pos.rest.length
    let pos' := pos.advance lenCpy
    if pos'.sent = pos'.data.length then
      let (out, q) := copyOut n (left - lenCpy)
      (pos.rest.take lenCpy ++ out, q)
    else (pos.rest.take lenCpy, pos' :: n)

/-- What `relay_data_source_read_callback` returns. -/
inductive ReadResult where
  | copied (data : Bytes)
  | eof
  | deferred
  deriving DecidableEq, Repr

/-- `relay_data_source_read_callback`. -/
def relayDataSourceRead (r : RelayId) (length : ℕ) : SysM ReadResult := do
  let rel ← getRelay r
  let out := copyOut rel.listWriteBuf length
  putRelay r { rel with listWriteBuf := out.2 }
  if out.1.isEmpty then
    return if rel.isRequestComplete && out.2.isEmpty then .eof else .deferred
  else return .copied out.1

/-- nghttp2 asks the data provider of a stream for up to `length` bytes.  A provider that signals
the end ends our side of the stream; one that has nothing is not asked again until it is resumed. -/
def pullFrom (sid : StreamId) (st : Stream) (r : RelayId) (length : ℕ) : SysM Unit := do
  match ← relayDataSourceRead r length with
  | .copied _ => pure ()
  | .deferred => modify (·.mapStream sid ({ · with deferred := true }))
  | .eof =>
    modify (·.mapStream sid ({ · with shutWr := true }))
    if st.shutRd then closeStream sid else pure ()

/-- The stream `sid` has its turn: without effect unless it has a provider that is to be asked. -/
def pull (sid : StreamId) (length : ℕ) : SysM Unit := do
  match (← get).streams sid with
  | none => pure ()
  | some st =>
    match st.provider with
    | none => pure ()
    | some r =>
      if st.deferred || st.shutWr || st.closing then pure () else pullFrom sid st r length

/-! ### Sending -/

/-- Close the streams whose `RST_STREAM` goes out, in order. -/
def closeStreams : List StreamId → SysM Unit
  | [] => pure ()
  | sid :: rest => do
    closeStream sid
    closeStreams rest

/-- Ask the data providers, in order. -/
def pullAll : List (StreamId × ℕ) → SysM Unit
  | [] => pure ()
  | (sid, length) :: rest => do
    pull sid length
    pullAll rest

/-- `nghttp2_session_send`: what is queued goes out, then the data providers are asked, unless there was
a connection error. -/
def sessionSend (session : Bool) : SysM Unit := do
  needSession session
  let w ← get
  modify fun w => (w.setCloseOnSend []).setPulls w.pulls.tail
  closeStreams w.closeOnSend
  pullAll (if w.goawayTerm then [] else w.pulls.headD [])

end H2ClientProxy
