import H2ClientProxy.RelayHttp2.Session

/-!
# `relay_http2.c`

The operations of `http2_relay_sys` that the client calls, the callbacks that nghttp2 calls while it
receives, the connect timer and the failure of the tunnel.  `relay->cb` is a function pointer: the
functions that call it take the callback as a parameter.

`relay_init_h2_session`, which runs when the tunnel is connected, only creates the session.
-/

namespace H2ClientProxy

open SendQueue

/-- `relay_eventcb`, applied to `relay->args`. -/
abbrev RelayEventcb := ClientId → RelayWhat → SysM Unit

/-- A write to a field of a relay.  After `relay_free` the write hits freed memory: it is noted, and
leaves every live object alone. -/
def writeRelay (r : RelayId) (f : Relay → Relay) : SysM Unit := do
  match (← get).relays r with
  | some rel => putRelay r (f rel)
  | none => note (.wildWrite r)

/-! ### The operations of `http2_relay_sys` -/

/-- `relay_create`; the host and the port are not read. -/
def relayCreate (args : ClientId) : SysM RelayId := do
  let w ← get
  modify (·.addRelay { session := w.sSession, args := args })
  return w.nextRelay

/-- Whether `relay_send_request` submits the request with the data provider. -/
def requestHasProvider (header : Header) : Bool :=
  (headerValue header (bytes "upgrade")).isSome || strcasecmp header.method (bytes "post")
    || strcasecmp header.method (bytes "connect")

/-- `relay_send_request`.  The list of name/value pairs it builds from the header is not part of
the state. -/
def relaySendRequest (r : RelayId) (header : Option Header) : SysM Unit := do
  match header with
  | none => throw .nullHeader
  | some header =>
    if header.url.isNone then throw .nullHeader
    else
      let rel ← getRelay r
      let sSession := (← get).sSession
      let sid ← submitRequest sSession (requestHasProvider header) r
      putRelay r { rel with requestHeader := some header, streamId := sid }
      sessionSend sSession
      writeRelay r fun rel => { rel with relayStatus := .requestSent }

/-- `relay_get_header`. -/
def relayGetHeader (r : RelayId) : SysM Header := do
  return (← getRelay r).responseHeader

/-- `relay_get_body`. -/
def relayGetBody (r : RelayId) : SysM Bytes := do
  return (← getRelay r).bodyData

/-- `relay_get_status`. -/
def relayGetStatus (r : RelayId) : SysM RelayStatus := do
  return (← getRelay r).relayStatus

/-- `relay_write_body`; `ep_buffer_create` asserts that there is something to write. -/
def relayWriteBody (r : RelayId) (data : Bytes) : SysM Unit := do
  if data.isEmpty then throw .assertFailed
  else
    let rel ← getRelay r
    putRelay r { rel with listWriteBuf := rel.listWriteBuf ++ [Buf.fresh data] }
    -- `nghttp2_session_get_stream_remote_window_size`, for the log only
    needSession rel.session
    if RelayStatus.requestSent.toNat ≤ rel.relayStatus.toNat then
      resumeData rel.session rel.streamId
      sessionSend rel.session
    else pure ()

/-- `relay_close`. -/
def relayClose (r : RelayId) : SysM Unit := do
  note (.close r)
  let rel ← getRelay r
  submitRstStream rel.session rel.streamId
  sessionSend rel.session
  writeRelay r fun rel => { rel with isAttached := false }

/-- `relay_complete_request`. -/
def relayCompleteRequest (r : RelayId) : SysM Unit :=
  writeRelay r fun rel => { rel with isRequestComplete := true }

/-- `relay_suspend_read`. -/
def relaySuspendRead (r : RelayId) : SysM Unit :=
  writeRelay r fun rel => { rel with isResponseReadSuspend := true }

/-- `relay_resume_read`. -/
def relayResumeRead (r : RelayId) : SysM Unit := do
  let rel ← getRelay r
  let localWindowLen ← getRecvLen rel.session rel.streamId
  if rel.isResponseReadSuspend && decide (localWindowLen > 30000) then
    submitWindowUpdate rel.session rel.streamId localWindowLen.toNat
    sessionSend rel.session
    writeRelay r fun rel => { rel with isResponseReadSuspend := false }
  else
    writeRelay r fun rel => { rel with isResponseReadSuspend := false }

/-! ### Calling the client back -/

/-- `relay->cb(relay, what, relay->args)`. -/
def relayCallback (cb : RelayEventcb) (r : RelayId) (what : RelayWhat) : SysM Unit := do
  let rel ← getRelay r
  note (.event r what rel.responseHeader rel.bodyData)
  cb rel.args what

/-- `relay_check_length_info`. -/
def relayCheckLengthInfo (rel : Relay) : Relay :=
  let contentLength := headerValue rel.responseHeader (bytes "content-length")
  let chunked := headerValue rel.responseHeader (bytes "Transfer-Encoding")
  let proxyConnection := headerValue rel.responseHeader (bytes "proxy-connection")
  let status := rel.responseHeader.statusCode
  let hdr :=
    if proxyConnection.isSome then rel.responseHeader
    else headerAddPair rel.responseHeader (bytes "proxy-connection")
      (if status < 500 then bytes "keep-alive" else bytes "close")
  if status > 400 then { rel with responseHeader := hdr }
  else if contentLength.isNone && chunked.isNone then
    { rel with
      hasLengthInfo := false
      responseHeader := headerAddPair hdr (bytes "Transfer-Encoding") (bytes "chunked") }
  else { rel with hasLengthInfo := true, responseHeader := hdr }

/-- `relay_on_message_complete`. -/
def relayOnMessageComplete (cb : RelayEventcb) (r : RelayId) : SysM Unit := do
  let rel ← getRelay r
  putRelay r { rel with relayStatus := .msgComplete }
  relayCallback cb r .msgComplete

/-- `relay_on_response_header_complete`. -/
def relayOnResponseHeaderComplete (cb : RelayEventcb) (r : RelayId) : SysM Unit := do
  let rel ← getRelay r
  putRelay r { rel with relayStatus := .headerComplete }
  relayCallback cb r .headerComplete

/-! ### The callbacks of the session -/

/-- The flags of a frame header. -/
abbrev Flags := BitVec 8

def FLAG_END_STREAM : Flags := 0x1
def FLAG_END_HEADERS : Flags := 0x4
/-- `flags & NGHTTP2_FLAG_END_STREAM`. -/
def isEndStream (flags : Flags) : Bool := flags &&& FLAG_END_STREAM ≠ 0

/-- `flags & NGHTTP2_FLAG_END_HEADERS`. -/
def isEndHeaders (flags : Flags) : Bool := flags &&& FLAG_END_HEADERS ≠ 0

/-- The frames nghttp2 reports on a stream. -/
inductive Frame where
  | data (flags : Flags)
  | headers (flags : Flags)
  | rstStream
  /-- `WINDOW_UPDATE`, `PRIORITY`, …: no branch of the callback does anything with them. -/
  | other
  deriving DecidableEq, Repr

/-- `nghttp2_headers_category` of a `HEADERS` frame on a stream of ours: `response` for the first
one of the stream, `headers` for each later one. -/
inductive HeadersCategory where
  | response
  | headers
  deriving DecidableEq, Repr

/-- The `NGHTTP2_HEADERS` branch of `relay_session_on_frame_recv_callback`. -/
def relayOnHeadersFrame (cb : RelayEventcb) (r : RelayId) (flags : Flags) : SysM Unit := do
  if isEndHeaders flags then
    if !isEndStream flags then
      let rel ← getRelay r
      match rel.requestHeader with
      | none => throw .nullHeader
      | some h =>
        if !strcasecmp h.method (bytes "connect") then putRelay r (relayCheckLengthInfo rel)
        else pure ()
    else pure ()
    relayOnResponseHeaderComplete cb r
  else pure ()
  if isEndStream flags then relayOnMessageComplete cb r else pure ()

/-- `relay_session_on_frame_recv_callback`. -/
def relaySessionOnFrameRecv (cb : RelayEventcb) (userData : Option RelayId) (frame : Frame) :
    SysM Unit := do
  match userData with
  | none => pure ()
  | some r =>
    let rel ← getRelay r
    if !rel.isAttached then pure ()
    else
      match frame with
      -- `frame->hd.flags && NGHTTP2_FLAG_END_STREAM`: a logical and, true for any flag
      | .data flags => if flags ≠ 0 then relayOnMessageComplete cb r else pure ()
      | .headers flags => relayOnHeadersFrame cb r flags
      | .rstStream =>
        relayCallback cb r .errConnFailed
        relayFree r
      | .other => pure ()

/-- `relay_on_data_chunk_recv_callback`.  The connection window starts at 65535 and only grows, so
`session_window_len > 30000` holds at every call and the session is always sent. -/
def relayOnDataChunkRecv (cb : RelayEventcb) (sid : StreamId) (data : Bytes) : SysM Unit := do
  let localWindowLen ← getRecvLen true sid
  match getStreamUserData (← get) sid with
  | none => pure ()
  | some r =>
    let rel ← getRelay r
    if !rel.isAttached then pure ()
    else
      putRelay r { rel with bodyData := data }
      relayCallback cb r .body
      let rel ← getRelay r
      if !rel.isResponseReadSuspend && decide (localWindowLen > 30000) then
        submitWindowUpdate true sid localWindowLen.toNat
      else pure ()
      sessionSend true

/-- `relay_on_header_callback`.  The name and the value are copied with `strncpy` into arrays of
1024 and 4096 bytes and then used as strings; a copy without a terminating NUL is read past its
end. -/
def relayOnHeader (userData : Option RelayId) (cat : HeadersCategory) (name value : Bytes) :
    SysM Unit := do
  let szField := strncpy name 1024
  let szValue := strncpy value 4096
  if szField.length = 1024 ∨ szValue.length = 4096 then throw .bufferOverread
  else
    match cat with
    | .headers => pure ()
    | .response =>
      match userData with
      | none => pure ()
      | some r =>
        let rel ← getRelay r
        if strcasecmp szField (bytes ":status") then
          putRelay r
            { rel with responseHeader := { rel.responseHeader with statusCode := atoi szValue } }
        else
          putRelay r { rel with responseHeader := headerAddPair rel.responseHeader szField szValue }

/-! ### The connect timer and the failure of the tunnel -/

/-- `relay_tmrcb`; the timer has been unlinked when it is called. -/
def relayTmrcb (cb : RelayEventcb) (r : RelayId) : SysM Unit := do
  if (← get).sSession then relayCallback cb r .connected
  else relayCallback cb r .errConnFailed

/-- The loop of `drop_all_clients`. -/
def dropClients (cb : RelayEventcb) : List RelayId → SysM Unit
  | [] => pure ()
  | r :: rest => do
    let rel ← getRelay r
    if rel.isAttached then relayCallback cb r .errConnFailed else pure ()
    relayFree r
    dropClients cb rest

/-- `drop_all_clients`. -/
def dropAllClients (cb : RelayEventcb) : SysM Unit := do
  dropClients cb (← get).sListRelays

end H2ClientProxy
