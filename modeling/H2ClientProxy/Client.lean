import H2ClientProxy.Lib.Wrap32
import H2ClientProxy.RelayHttp2.Relay

/-!
# `client.c`

One function of the source after the other, under its name.  Every call through
`client->relay_sys` with `client->relay` goes through `clientRelay`, which faults when one of the two
is `NULL`.  The socket side of `client_write` and `client_writecb` is computed by the pure functions
`writeClient` and `drain` from the answers that `send()` gives.
-/

namespace H2ClientProxy

open SendQueue Wrap32

/-- The relay that `client->relay_sys->op(client->relay, …)` is called with. -/
def clientRelay (cl : Client) (op : RelayOp) : SysM RelayId :=
  if cl.relaySys then
    match cl.relay with
    | some r => pure r
    | none => throw (.nullRelay op)
  else throw .nullRelaySys

/-! ### Writing to the client -/

/-- `send(fd, buf, offered, 0)`: the number of bytes accepted or `errno`, and the answers left for
later calls. -/
def send : List SendResult → ℕ → Except Errno ℕ × List SendResult
  | [], offered => (.ok offered, [])
  | .accepted n :: rest, offered => (.ok (min n offered), rest)
  | .error e :: rest, _ => (.error e, rest)

/-- The buffer that `client_write` queues when the queue was empty; it also asks for a writable
event. -/
def queueFirst (cl : Client) (data : Bytes) : Client :=
  { cl with
    listResponseWriteBuffer := cl.listResponseWriteBuffer ++ [Buf.fresh data]
    pendingWrite := wrap32 (cl.pendingWrite + data.length)
    file := epFileDetect cl.file (epFileGetDetect cl.file ||| EP_WRITE)
      (epFileGetTimeout cl.file) }

/-- What a call of `client_write` leaves behind. -/
structure WriteOut where
  client : Client
  sends : List SendResult
  ret : ℤ

/-- The body of `client_write`. -/
def writeClient (cl : Client) (sends : List SendResult) (data : Bytes) : WriteOut :=
  let cl := { cl with written := cl.written ++ data }
  if cl.listResponseWriteBuffer.isEmpty then
    match send sends data.length with
    | (.ok lenWrite, sends) =>
      let cl := { cl with accepted := cl.accepted ++ data.take lenWrite }
      if lenWrite < data.length then ⟨queueFirst cl (data.drop lenWrite), sends, 0⟩
      else ⟨cl, sends, 0⟩
    | (.error e, sends) =>
      if e ≠ .EINPROGRESS then ⟨cl, sends, -1⟩ else ⟨queueFirst cl data, sends, 0⟩
  else
    ⟨{ cl with
        listResponseWriteBuffer := cl.listResponseWriteBuffer ++ [Buf.fresh data]
        pendingWrite := wrap32 (cl.pendingWrite + data.length) }, sends, 0⟩

/-- `client_write`. -/
def clientWrite (c : ClientId) (data : Bytes) : SysM ℤ := do
  let cl ← getClient c
  let out := writeClient cl (← get).sends data
  modify (·.setSends out.sends)
  putClient c out.client
  return out.ret

/-! ### Dropping a client -/

/-- `client_drop`. -/
def clientDrop (c : ClientId) : SysM Unit := do
  let cl ← getClient c
  if cl.relay.isSome then
    let r ← clientRelay cl .close
    relayClose r
  else pure ()
  modify (·.setClient c none)

/-! ### The events of the relay -/

/-- The loop of `client_handle_relay_connected` over the body bytes that came too early. -/
def writeBodies (c : ClientId) (r : RelayId) : List BodyBuffer → SysM Unit
  | [] => pure ()
  | pos :: n => do
    note (.writeBody r c pos.req pos.data)
    relayWriteBody r pos.data
    writeBodies c r n

/-- `client_handle_relay_connected`. -/
def clientHandleRelayConnected (c : ClientId) : SysM Unit := do
  let cl ← getClient c
  match cl.relay with
  | none => throw .assertFailed
  | some r =>
    putClient c
      { cl with file := epFileDetect cl.file EP_READ (-1), listRequestBodyBuffer := [] }
    match cl.requestHeader with
    | some h => note (.sendRequest r c h.id)
    | none => pure ()
    relaySendRequest r cl.requestHeader
    writeBodies c r cl.listRequestBodyBuffer

/-- The lines of the response fields, appended one by one. -/
def appendFields : List Field → Bytes → Option Bytes
  | [], buf => some buf
  | pos :: rest, buf => do
    let buf ← appendFormat buf (50 * 4096) (pos.field ++ bytes ": " ++ pos.value ++ crlf)
    appendFields rest buf

/-- The response head that `client_handle_relay_hdr_complete` builds in `buf[50 * 4096]`, the final
`strcat` included; `none` when it leaves the buffer. -/
def responseHead (hdr : Header) : Option Bytes := do
  let buf ← appendFormat [] (50 * 4096)
    (bytes "HTTP/1.1 " ++ getStatusString hdr.statusCode false ++ crlf)
  let buf ← appendFields hdr.listHeaders buf
  if buf.length + 2 < 50 * 4096 then some (buf ++ crlf) else none

/-- `client_handle_relay_hdr_complete`. -/
def clientHandleRelayHdrComplete (c : ClientId) : SysM Unit := do
  let cl ← getClient c
  let r ← clientRelay cl .getHeader
  let hdr ← relayGetHeader r
  if (getStatusString hdr.statusCode false).isEmpty then throw .assertFailed
  else
    match responseHead hdr with
    | none => throw .bufferOverflow
    | some buf =>
      let _ ← clientWrite c buf

/-- `transfer_encoding && strcasecmp(transfer_encoding, "chunked") == 0`. -/
def isChunked (hdr : Header) : Bool :=
  match headerValue hdr (bytes "Transfer-Encoding") with
  | some te => strcasecmp te (bytes "chunked")
  | none => false

/-- `client_handle_relay_body`. -/
def clientHandleRelayBody (c : ClientId) : SysM Unit := do
  let cl ← getClient c
  let r ← clientRelay cl .getHeader
  let hdr ← relayGetHeader r
  let body ← relayGetBody r
  if isChunked hdr then
    let _ ← clientWrite c (chunkSizeLine body.length)
    let _ ← clientWrite c body
    let _ ← clientWrite c crlf
  else
    let _ ← clientWrite c body
  let cl ← getClient c
  if cl.pendingWrite > 30000 then
    let r ← clientRelay cl .suspendRead
    relaySuspendRead r
  else pure ()

/-- `client->relay = relay_create(host, port, …)` for the header `h`; the host and the port are
read from its url. -/
def createRelay (c : ClientId) (h : Header) : SysM RelayId := do
  if h.url.isNone then throw .nullHeader
  else
    let r ← relayCreate c
    note (.create r c h.id)
    return r

/-- The end of `client_handle_relay_msg_complete`: the current header is freed, and a pending one
takes its place with a relay of its own. -/
def nextRequest (c : ClientId) : SysM Unit := do
  let cl ← getClient c
  match cl.pendingRequestHeader with
  | some h =>
    let r ← createRelay c h
    putClient c
      { cl with relay := some r, requestHeader := some h, pendingRequestHeader := none }
  | none => putClient c { cl with relay := none, requestHeader := none }

/-- `client_handle_relay_msg_complete`. -/
def clientHandleRelayMsgComplete (c : ClientId) : SysM Unit := do
  let cl ← getClient c
  let r ← clientRelay cl .getHeader
  let hdr ← relayGetHeader r
  if isChunked hdr then
    let _ ← clientWrite c (bytes "0" ++ crlf ++ crlf)
  else pure ()
  let cl ← getClient c
  putClient c { cl with relay := none }
  if (headerValue hdr (bytes "Transfer-Encoding")).isNone
      && (headerValue hdr (bytes "Content-Length")).isNone then clientDrop c
  else nextRequest c

/-- The error branches of `client_relay_cb`. -/
def clientHandleRelayErr (c : ClientId) : SysM Unit := do
  let cl ← getClient c
  putClient c { cl with relay := none }
  clientDrop c

/-- `client_relay_cb`. -/
def clientRelayCb : RelayEventcb
  | c, .connected => clientHandleRelayConnected c
  | c, .headerComplete => clientHandleRelayHdrComplete c
  | c, .body => clientHandleRelayBody c
  | c, .msgComplete => clientHandleRelayMsgComplete c
  | c, .errConnFailed => clientHandleRelayErr c
  | c, .errDnsFailed => clientHandleRelayErr c
  | _, .errResponseParseFailed => pure ()
  | _, .errConnTerminate => pure ()

/-! ### The callbacks of the request parser -/

/-- `client_msg_begin`. -/
def clientMsgBegin (c : ClientId) : SysM Unit := do
  let cl ← getClient c
  let cl := { cl with parser := .head, reqNo := cl.reqNo + 1 }
  if cl.relay.isSome then
    if cl.requestHeader.isNone then throw .assertFailed
    else putClient c { cl with pendingRequestHeader := some (headerNew cl.reqNo) }
  else
    if cl.requestHeader.isSome then throw .assertFailed
    else putClient c { cl with requestHeader := some (headerNew cl.reqNo) }

/-- The header the parser callbacks work on: the pending one if there is one. -/
def reqHeader (cl : Client) : Option Header :=
  match cl.pendingRequestHeader with
  | some h => some h
  | none => cl.requestHeader

/-- Store that header. -/
def setReqHeader (cl : Client) (h : Header) : Client :=
  if cl.pendingRequestHeader.isSome then { cl with pendingRequestHeader := some h }
  else { cl with requestHeader := some h }

/-- A parser callback that only changes the header; `f` is `none` when an `assert` fails. -/
def updateReqHeader (c : ClientId) (f : Header → Option Header) : SysM Unit := do
  let cl ← getClient c
  match reqHeader cl with
  | none => throw .nullHeader
  | some h =>
    match f h with
    | none => throw .assertFailed
    | some h => putClient c (setReqHeader cl h)

/-- `client_url_complete`. -/
def clientUrlComplete (c : ClientId) (data : Bytes) : SysM Unit :=
  updateReqHeader c fun h => some (headerSetUrl h data)

/-- `client_header_fieldcb`. -/
def clientHeaderFieldcb (c : ClientId) (data : Bytes) : SysM Unit :=
  updateReqHeader c fun h => headerAppendField h data

/-- `client_header_valuecb`. -/
def clientHeaderValuecb (c : ClientId) (data : Bytes) : SysM Unit :=
  updateReqHeader c fun h => some (headerAppendValue h data)

/-- `client_headers_completecb`. -/
def clientHeadersCompletecb (c : ClientId) (method : Bytes) : SysM Unit := do
  let cl ← getClient c
  match reqHeader cl with
  | none => throw .nullHeader
  | some h =>
    match headerAppendComplete (headerSetMethod h method) with
    | none => throw .assertFailed
    | some h =>
      note (.headersComplete c h.id)
      let cl :=
        { setReqHeader cl h with
          file := epFileDetect cl.file 0 (-1), relaySys := true, parser := .body }
      putClient c cl
      if cl.pendingRequestHeader.isNone then
        let r ← createRelay c h
        putClient c { cl with relay := some r }
      else pure ()

/-- `client_bodycb`.  `list_add_tail` is called with its arguments exchanged: the head of
`list_request_body_buffer` is linked into the ring of the new buffer, so that the list then holds
this buffer alone. -/
def clientBodycb (c : ClientId) (data : Bytes) : SysM Unit := do
  let cl ← getClient c
  let r ← clientRelay cl .getStatus
  let status ← relayGetStatus r
  if status.toNat < RelayStatus.connected.toNat then
    if data.isEmpty then throw .assertFailed
    else putClient c { cl with listRequestBodyBuffer := [⟨cl.reqNo, data⟩] }
  else
    note (.writeBody r c cl.reqNo data)
    relayWriteBody r data

/-- `client_message_completecb`. -/
def clientMessageCompletecb (c : ClientId) : SysM Unit := do
  let cl ← getClient c
  putClient c { cl with parser := .idle }
  let r ← clientRelay cl .completeRequest
  note (.completeRequest r c cl.reqNo)
  relayCompleteRequest r

/-! ### The socket events -/

/-- What the loop of `client_writecb` leaves behind. -/
structure DrainOut where
  queue : List (Buf UInt8)
  accepted : Bytes
  sends : List SendResult
  isError : Bool

/-- The loop of `client_writecb`.  After `EINPROGRESS` it goes on with the next buffer. -/
def drain : List (Buf UInt8) → List SendResult → DrainOut
  | [], sends => ⟨[], [], sends, false⟩
  | pos :: n, sends =>
    match send sends pos.rest.length with
    | (.error e, sends) =>
      if e ≠ .EINPROGRESS then ⟨pos :: n, [], sends, true⟩
      else
        let out := drain n sends
        { out with queue := pos :: out.queue }
    | (.ok lenWrite, sends) =>
      if lenWrite < pos.rest.length then
        ⟨pos.advance lenWrite :: n, pos.rest.take lenWrite, sends, false⟩
      else
        let out := drain n sends
        { out with accepted := pos.rest ++ out.accepted }

/-- The client after the loop of `client_writecb`. -/
def drainedClient (cl : Client) (out : DrainOut) : Client :=
  { cl with
    listResponseWriteBuffer := out.queue
    accepted := cl.accepted ++ out.accepted
    pendingWrite := wrap32 (cl.pendingWrite - out.accepted.length) }

/-- The client when the loop has ended without an error: with nothing left to send it is no longer
registered for events.  `detect &= (!EP_WRITE)` clears every bit, as `!EP_WRITE` is `0`. -/
def afterDrain (cl : Client) (out : DrainOut) : Client :=
  if out.queue.isEmpty then
    { drainedClient cl out with
      file := epFileDetect cl.file (epFileGetDetect cl.file &&& 0) (epFileGetTimeout cl.file) }
  else drainedClient cl out

/-- `client_writecb`. -/
def clientWritecb (c : ClientId) : SysM Unit := do
  let cl ← getClient c
  if !wantsWrite (epFileGetDetect cl.file) then throw .assertFailed
  else if cl.listResponseWriteBuffer.isEmpty then
    let r ← clientRelay cl .resumeRead
    relayResumeRead r
  else
    let out := drain cl.listResponseWriteBuffer (← get).sends
    modify (·.setSends out.sends)
    if out.isError then
      putClient c (drainedClient cl out)
      clientDrop c
    else
      putClient c (afterDrain cl out)
      if (afterDrain cl out).pendingWrite < 30000 then
        let r ← clientRelay (afterDrain cl out) .resumeRead
        relayResumeRead r
      else pure ()

/-- `client_handle_fd`. -/
def clientHandleFd : SysM Unit :=
  modify (·.addClient { file := epFileDetect epFileCreate EP_READ (30 * 1000) })

end H2ClientProxy
