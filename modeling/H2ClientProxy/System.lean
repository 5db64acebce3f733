import H2ClientProxy.Lib.Machine
import H2ClientProxy.Client

/-!
# The proxy as a machine

The proxy is one thread that waits for events: a client socket becomes readable or writable, the
connect timer of a relay fires, the tunnel is connected, delivers bytes or fails.  `Event` lists
them at the grain of the callbacks of the HTTP/1 parser and of nghttp2, so that any two callbacks
may have other events between them; this includes the real order, in which a read makes several
callbacks in a row.

`step` handles one event.  An event that cannot happen in the present state (a body callback before
the end of the header block, a frame on a closed stream) changes nothing, so every list of inputs is
a run.  `Machine.run step inputs World.init` is a run of the proxy from its start.
-/

namespace H2ClientProxy

/-- What can happen to the proxy. -/
inductive Event where
  /-- A connection is accepted: `client_handle_fd`. -/
  | accept
  /-- `on_message_begin`. -/
  | msgBegin (c : ClientId)
  /-- `on_url`. -/
  | url (c : ClientId) (data : Bytes)
  /-- `on_header_field`. -/
  | headerField (c : ClientId) (data : Bytes)
  /-- `on_header_value`. -/
  | headerValue (c : ClientId) (data : Bytes)
  /-- `on_headers_complete`. -/
  | headersComplete (c : ClientId) (method : Bytes)
  /-- `on_body`. -/
  | body (c : ClientId) (data : Bytes)
  /-- `on_message_complete`. -/
  | messageComplete (c : ClientId)
  /-- The client socket is at its end or broken: `recv` returns 0 or -1, or `EP_ERROR`. -/
  | clientGone (c : ClientId)
  /-- The client socket is writable. -/
  | writable (c : ClientId)
  /-- The connect timer of a relay fires. -/
  | timer (r : RelayId)
  /-- The tunnel is connected. -/
  | tunnelConnected
  /-- The tunnel is at its end or broken. -/
  | tunnelFailed
  /-- nghttp2 reports one header field of a `HEADERS` frame. -/
  | recvHeader (sid : StreamId) (cat : HeadersCategory) (name value : Bytes)
  /-- nghttp2 reports a complete frame. -/
  | recvFrame (sid : StreamId) (frame : Frame)
  /-- nghttp2 reports a piece of a `DATA` frame. -/
  | recvData (sid : StreamId) (data : Bytes)
  /-- nghttp2 finds a protocol error in what it received on a stream and queues a `RST_STREAM`;
  with `shutRd` the offending frame carried `END_STREAM`. -/
  | protocolError (sid : StreamId) (shutRd : Bool)
  /-- nghttp2 receives a `GOAWAY` and closes the streams in `sids`, all above its last stream.  A request
  that waits for the peer's limit of concurrent streams is closed like this, too, if a `GOAWAY` of either
  side has come before its turn. -/
  | goaway (sids : List StreamId)
  /-- nghttp2 finds a connection error in what it received, and queues a `GOAWAY` of its own:
  `session_terminate_session`. -/
  | connectionError
  /-- `nghttp2_session_send` at the end of a read of the tunnel. -/
  | sessionSend
  deriving DecidableEq, Repr

/-- An event, and the answers of `send()` and of nghttp2's scheduler while it is handled. -/
structure Input where
  event : Event
  sends : List SendResult := []
  pulls : List (List (StreamId × ℕ)) := []

/-! ### nghttp2 receives -/

/-- A frame of an open stream is reported, and its `END_STREAM` or `RST_STREAM` then takes effect.
`HEADERS` and `DATA` are ignored once the stream has ended or is being reset. -/
def onFrame (cb : RelayEventcb) (sid : StreamId) (frame : Frame) : SysM Unit := do
  match (← get).streams sid with
  | none => pure ()
  | some st =>
    match frame with
    | .data flags | .headers flags =>
      if st.shutRd || st.closing then pure ()
      else
        relaySessionOnFrameRecv cb st.userData frame
        if isEndStream flags then shutdownRd sid else pure ()
    | .rstStream =>
      relaySessionOnFrameRecv cb st.userData frame
      closeStream sid
    | .other => relaySessionOnFrameRecv cb st.userData frame

/-- A piece of a `DATA` frame: the receive window is updated before the callback. -/
def onDataChunk (cb : RelayEventcb) (sid : StreamId) (data : Bytes) : SysM Unit := do
  match (← get).streams sid with
  | none => pure ()
  | some st =>
    if st.shutRd || st.closing then pure ()
    else
      modify (·.mapStream sid fun st => { st with recvLen := st.recvLen + data.length })
      relayOnDataChunkRecv cb sid data

/-- One field of a `HEADERS` frame. -/
def onHeader (sid : StreamId) (cat : HeadersCategory) (name value : Bytes) : SysM Unit := do
  match (← get).streams sid with
  | none => pure ()
  | some st =>
    if st.shutRd || st.closing then pure () else relayOnHeader st.userData cat name value

/-- A protocol error on an open stream. -/
def onProtocolError (sid : StreamId) (shutRd : Bool) : SysM Unit := do
  match (← get).streams sid with
  | none => pure ()
  | some _ =>
    addRstStream sid
    if shutRd then shutdownRd sid else pure ()

/-! ### Steps -/

/-- The events of a client that is still there. -/
def onClient (c : ClientId) (possible : Client → Bool) (f : SysM Unit) : SysM Unit := do
  match (← get).clients c with
  | some cl => if possible cl then f else pure ()
  | none => pure ()

/-- nghttp2 receives only while the tunnel is connected. -/
def onTunnel (f : SysM Unit) : SysM Unit := do
  if (← get).tunnel = .connected then f else pure ()

/-- The handler of an event. -/
def handle : Event → SysM Unit
  | .accept => clientHandleFd
  | .msgBegin c => onClient c (·.parser = .idle) (clientMsgBegin c)
  | .url c data => onClient c (·.parser = .head) (clientUrlComplete c data)
  | .headerField c data => onClient c (·.parser ≠ .idle) (clientHeaderFieldcb c data)
  | .headerValue c data => onClient c (·.parser ≠ .idle) (clientHeaderValuecb c data)
  | .headersComplete c method =>
    onClient c (·.parser = .head) (clientHeadersCompletecb c method)
  | .body c data => onClient c (·.parser = .body) (clientBodycb c data)
  | .messageComplete c => onClient c (·.parser = .body) (clientMessageCompletecb c)
  | .clientGone c => onClient c (fun _ => true) (clientDrop c)
  | .writable c => onClient c (fun cl => wantsWrite cl.file.mask) (clientWritecb c)
  | .timer r => do
    match (← get).relays r with
    | some rel =>
      if rel.tmrConnectd then
        putRelay r { rel with tmrConnectd := false }
        relayTmrcb clientRelayCb r
      else pure ()
    | none => pure ()
  | .tunnelConnected => do
    if (← get).tunnel = .connecting then
      modify (·.setTunnel .connected true)
    else pure ()
  | .tunnelFailed => do
    if (← get).tunnel ≠ .closed then
      modify fun w => w.setTunnel .closed w.sSession
      dropAllClients clientRelayCb
      modify (·.setTunnel .closed false)
    else pure ()
  | .recvHeader sid cat name value => onTunnel (onHeader sid cat name value)
  | .recvFrame sid frame => onTunnel (onFrame clientRelayCb sid frame)
  | .recvData sid data => onTunnel (onDataChunk clientRelayCb sid data)
  | .protocolError sid shutRd => onTunnel (onProtocolError sid shutRd)
  | .goaway sids => onTunnel do
    modify World.setGoaway
    closeStreams sids
  | .connectionError => onTunnel (modify World.setGoawayTerm)
  | .sessionSend => onTunnel (sessionSend true)

/-- One step of the proxy. -/
def step (i : Input) : SysM Unit := do
  modify fun w => (w.setSends i.sends).setPulls i.pulls
  handle i.event

/-- An input of the proxy, or a call of `client_write` with any data for a client that is there. -/
inductive Action where
  | input (i : Input)
  | write (c : ClientId) (data : Bytes) (sends : List SendResult)

/-- One step of the proxy together with a caller that may write to its clients at any time. -/
def act : Action → SysM Unit
  | .input i => step i
  | .write c data sends => do
    modify (·.setSends sends)
    onClient c (fun _ => true) do
      let _ ← clientWrite c data

/-- The proxy after `relay_sys_init`: the tunnel is being connected, nobody is there yet. -/
def World.init : World := {}

/-! ### Events of ordinary runs -/

/-- Events during which `send()` accepts everything and no data provider is asked. -/
def inputs (es : List Event) : List Input := es.map fun e => { event := e }

/-- The tunnel is connected and a client arrives. -/
def opening : List Event := [.accept, .tunnelConnected]

/-- The callbacks for the header block of a request. -/
def requestHead (c : ClientId) (method : Bytes) : List Event :=
  [.msgBegin c, .url c (bytes "/"), .headersComplete c method]

/-- The callbacks for a request without a body. -/
def getRequest (c : ClientId) : List Event := requestHead c (bytes "GET") ++ [.messageComplete c]

/-- A response without a body. -/
def emptyResponse (s : StreamId) : List Event :=
  [.recvHeader s .response (bytes ":status") (bytes "200"),
    .recvHeader s .response (bytes "content-length") (bytes "0"), .recvFrame s (.headers 5)]

end H2ClientProxy
