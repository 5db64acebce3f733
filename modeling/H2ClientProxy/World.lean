import H2ClientProxy.Lib.Wp
import H2ClientProxy.Lib.SendQueue
import H2ClientProxy.Header
import H2ClientProxy.Ep.File

/-!
# The state of the proxy

`World` is everything that `client.c` and `relay_http2.c` read and write: the client connections,
the relays, the one nghttp2 session of the tunnel with its streams, and the answers that the
operating system and nghttp2 give next.  Objects on the heap are tables from identities to contents;
`none` is an object that has not been allocated yet or has been freed, and identities are never
reused.

A program is a `SysM`: it changes the world and stops with a `Fault` where the C code has no
defined behaviour (a `NULL` or freed object is used) or aborts (a failed `assert`).  The world keeps
a `trace` of what crosses the boundary between the two modules, and of what was `released` with the
clients that were freed; no program reads these.
-/

namespace H2ClientProxy

open SendQueue

abbrev ClientId := ℕ
abbrev RelayId := ℕ
abbrev StreamId := ℕ

/-- The events of `relay.h`. -/
inductive RelayWhat where
  | connected
  | headerComplete
  | body
  | msgComplete
  | errDnsFailed
  | errConnFailed
  | errResponseParseFailed
  | errConnTerminate
  deriving DecidableEq, Repr

/-- `RELAY_MSG_COMPLETE` and the `RELAY_ERR_*` events end a relay. -/
def RelayWhat.terminal : RelayWhat → Bool
  | .connected | .headerComplete | .body => false
  | _ => true

/-- The states of `relay.h`, in their order. -/
inductive RelayStatus where
  | connecting
  | connected
  | requestSent
  | headerComplete
  | msgComplete
  deriving DecidableEq, Repr

/-- The value of the C enumeration. -/
def RelayStatus.toNat : RelayStatus → ℕ
  | .connecting => 0
  | .connected => 1
  | .requestSent => 2
  | .headerComplete => 3
  | .msgComplete => 4

/-- The operations of `struct relay_sys` that take a relay. -/
inductive RelayOp where
  | sendRequest
  | getHeader
  | getBody
  | writeBody
  | close
  | getStatus
  | suspendRead
  | resumeRead
  | completeRequest
  deriving DecidableEq, Repr

/-- Where the C code stops being defined, or stops. -/
inductive Fault where
  /-- `client->relay_sys->op(client->relay, …)` with `client->relay == NULL`. -/
  | nullRelay (op : RelayOp)
  /-- `client->relay_sys` is still `NULL`. -/
  | nullRelaySys
  /-- A field of a relay is read after `relay_free`. -/
  | relayFreed (r : RelayId)
  /-- The relay callback is called for a client after `client_drop` freed it. -/
  | clientFreed (c : ClientId)
  /-- An nghttp2 function is called with a `NULL` session. -/
  | nullSession
  /-- A `NULL` header, or the `NULL` url of a header, is used. -/
  | nullHeader
  /-- A failed `assert`. -/
  | assertFailed
  /-- A write past the end of an array. -/
  | bufferOverflow
  /-- A read past the end of an array. -/
  | bufferOverread
  deriving DecidableEq, Repr

/-! ### Clients -/

/-- `errno` after a failed `send`. -/
inductive Errno where
  | EAGAIN
  | EWOULDBLOCK
  | EINPROGRESS
  | other
  deriving DecidableEq, Repr

/-- What one `send()` answers. -/
inductive SendResult where
  /-- At most `n` bytes are accepted (fewer when fewer are offered). -/
  | accepted (n : ℕ)
  | error (e : Errno)
  deriving DecidableEq, Repr

/-- Where in a request the HTTP/1 parser of a connection is; this fixes which callbacks it can make
next: `on_message_begin`, then `on_url` and the header callbacks, then `on_headers_complete`, then
`on_body` (and trailer fields), then `on_message_complete`. -/
inductive ParserPhase where
  | idle
  | head
  | body
  deriving DecidableEq, Repr

/-- One element of `list_request_body_buffer`, with the ordinal of the request the parser delivered
the bytes for. -/
structure BodyBuffer where
  req : ℕ
  data : Bytes
  deriving DecidableEq, Repr

/-- `struct client`.  The members that no function reads (`relay_connected`, `response_header`,
`pending_response_body`) are left out. -/
structure Client where
  file : EpFile
  /-- `relay_sys != NULL`. -/
  relaySys : Bool := false
  relay : Option RelayId := none
  requestHeader : Option Header := none
  pendingRequestHeader : Option Header := none
  parser : ParserPhase := .idle
  /-- How many requests the parser has begun: the ordinal of the one it is in. -/
  reqNo : ℕ := 0
  /-- `list_response_write_buffer`; a buffer's `len_total` is the length of its data. -/
  listResponseWriteBuffer : List (Buf UInt8) := []
  listRequestBodyBuffer : List BodyBuffer := []
  /-- An `int`: it wraps around. -/
  pendingWrite : ℤ := 0
  /-- All bytes passed to `client_write`, and all bytes the socket accepted. -/
  written : Bytes := []
  accepted : Bytes := []
  deriving DecidableEq

/-! ### Relays and streams -/

/-- `struct http2_relay`. -/
structure Relay where
  /-- `relay->session != NULL`.  There is one tunnel, hence one session in a run. -/
  session : Bool
  args : ClientId
  requestHeader : Option Header := none
  responseHeader : Header := {}
  /-- `tmr_connectd` is linked in the timer list: it was added and has not fired. -/
  tmrConnectd : Bool := true
  bodyData : Bytes := []
  /-- `0` before `nghttp2_submit_request`. -/
  streamId : StreamId := 0
  hasLengthInfo : Bool := false
  isRequestComplete : Bool := false
  isResponseReadSuspend : Bool := false
  isAttached : Bool := true
  listWriteBuf : List (Buf UInt8) := []
  relayStatus : RelayStatus := .connecting
  deriving DecidableEq

/-- What nghttp2 keeps of an open stream. -/
structure Stream where
  /-- `stream_user_data`. -/
  userData : Option RelayId
  /-- `source.ptr` of the data provider of the request. -/
  provider : Option RelayId
  /-- The provider answered `NGHTTP2_ERR_DEFERRED` and has not been resumed. -/
  deferred : Bool := false
  /-- `NGHTTP2_SHUT_RD`: `END_STREAM` was received. -/
  shutRd : Bool := false
  /-- `NGHTTP2_SHUT_WR`: `END_STREAM` was sent. -/
  shutWr : Bool
  /-- `NGHTTP2_STREAM_CLOSING`: a `RST_STREAM` is queued; frames of the stream are ignored. -/
  closing : Bool := false
  /-- `recv_window_size`: received and not yet acknowledged by a `WINDOW_UPDATE`. -/
  recvLen : ℕ := 0
  deriving DecidableEq, Repr

/-- `s_conn_tunnel`. -/
inductive Tunnel where
  | connecting
  | connected
  | closed
  deriving DecidableEq, Repr

/-! ### Observations -/

/-- What crosses the boundary between `client.c` and `relay_http2.c`, and what goes wrong there
without stopping the program. -/
inductive Obs where
  /-- `relay->cb(relay, what, relay->args)`, with the response header and the body chunk that the
  client can then fetch. -/
  | event (r : RelayId) (what : RelayWhat) (header : Header) (body : Bytes)
  /-- `relay_close(relay)`. -/
  | close (r : RelayId)
  /-- A field of a relay is written after `relay_free`. -/
  | wildWrite (r : RelayId)
  /-- `client_headers_completecb` for the request `req` of a connection. -/
  | headersComplete (c : ClientId) (req : ℕ)
  /-- `relay_create` for the request `req`. -/
  | create (r : RelayId) (c : ClientId) (req : ℕ)
  /-- `relay_send_request(relay, header)` with the header of the request `req`. -/
  | sendRequest (r : RelayId) (c : ClientId) (req : ℕ)
  /-- `relay_write_body(relay, data, len)` with bytes the parser delivered for the request `req`. -/
  | writeBody (r : RelayId) (c : ClientId) (req : ℕ) (data : Bytes)
  /-- `relay_complete_request(relay)` on the completion of the request `req`. -/
  | completeRequest (r : RelayId) (c : ClientId) (req : ℕ)
  deriving DecidableEq, Repr

/-- The send side of a client when `client_drop` freed it: the write queue it released, and all bytes
that had been passed to `client_write` and that the socket had accepted by then. -/
structure Release where
  client : ClientId
  queue : List (Buf UInt8)
  written : Bytes
  accepted : Bytes
  deriving DecidableEq

def Client.release (c : ClientId) (cl : Client) : Release :=
  ⟨c, cl.listResponseWriteBuffer, cl.written, cl.accepted⟩

/-! ### The world -/

structure World where
  clients : ClientId → Option Client := fun _ => none
  nextClient : ClientId := 0
  relays : RelayId → Option Relay := fun _ => none
  nextRelay : RelayId := 0
  sListRelays : List RelayId := []
  tunnel : Tunnel := .connecting
  /-- `s_session != NULL`. -/
  sSession : Bool := false
  /-- The open streams of the session. -/
  streams : StreamId → Option Stream := fun _ => none
  nextStreamId : StreamId := 1
  /-- The streams the next `nghttp2_session_send` closes: a `RST_STREAM` for them is queued, or
  their request `HEADERS` will be refused. -/
  closeOnSend : List StreamId := []
  /-- `NGHTTP2_GOAWAY_RECV`. -/
  goawayRecv : Bool := false
  /-- `NGHTTP2_GOAWAY_TERM_ON_SEND`: after a connection error. -/
  goawayTerm : Bool := false
  /-- The answers of the next calls of `send()`; a call beyond them accepts everything. -/
  sends : List SendResult := []
  /-- For each of the next calls of `nghttp2_session_send`: the data providers it asks, and for how
  many bytes. -/
  pulls : List (List (StreamId × ℕ)) := []
  trace : List Obs := []
  /-- What the clients that are gone released. -/
  released : List Release := []

/-- A program over the world. -/
abbrev SysM := EStateM Fault World

namespace World

/-- Replace (or free) a client. -/
@[simps -fullyApplied]
def setClient (w : World) (c : ClientId) (cl : Option Client) : World :=
  { w with clients := Function.update w.clients c cl
           released := match cl with
             | some _ => w.released
             | none => w.released ++ ((w.clients c).map (Client.release c)).toList }

/-- A new client. -/
@[simps -fullyApplied]
def addClient (w : World) (cl : Client) : World :=
  { w with clients := Function.update w.clients w.nextClient (some cl)
           nextClient := w.nextClient + 1 }

/-- Replace the contents of a relay. -/
@[simps -fullyApplied]
def setRelay (w : World) (r : RelayId) (rel : Relay) : World :=
  { w with relays := Function.update w.relays r (some rel) }

/-- A new relay, at the end of `s_list_relays`. -/
@[simps -fullyApplied]
def addRelay (w : World) (rel : Relay) : World :=
  { w with relays := Function.update w.relays w.nextRelay (some rel)
           nextRelay := w.nextRelay + 1
           sListRelays := w.sListRelays ++ [w.nextRelay] }

/-- Unlink and free a relay. -/
@[simps -fullyApplied]
def removeRelay (w : World) (r : RelayId) : World :=
  { w with relays := Function.update w.relays r none
           sListRelays := w.sListRelays.erase r }

/-- Change a stream; without effect on a stream that is not open. -/
@[simps -fullyApplied]
def mapStream (w : World) (s : StreamId) (f : Stream → Stream) : World :=
  { w with streams := Function.update w.streams s ((w.streams s).map f) }

/-- A new stream; ids of our streams are odd. -/
@[simps -fullyApplied]
def addStream (w : World) (st : Stream) : World :=
  { w with streams := Function.update w.streams w.nextStreamId (some st)
           nextStreamId := w.nextStreamId + 2 }

/-- Unlink a stream. -/
@[simps -fullyApplied]
def removeStream (w : World) (s : StreamId) : World :=
  { w with streams := Function.update w.streams s none }

/-- Set the streams that the next `nghttp2_session_send` closes. -/
@[simps -fullyApplied]
def setCloseOnSend (w : World) (sids : List StreamId) : World := { w with closeOnSend := sids }

/-- Set the answers of the following calls of `send()`. -/
@[simps -fullyApplied]
def setSends (w : World) (sends : List SendResult) : World := { w with sends := sends }

/-- Set what the following calls of `nghttp2_session_send` ask for. -/
@[simps -fullyApplied]
def setPulls (w : World) (pulls : List (List (StreamId × ℕ))) : World := { w with pulls := pulls }

/-- Set the state of the tunnel and of `s_session`. -/
@[simps -fullyApplied]
def setTunnel (w : World) (tunnel : Tunnel) (sSession : Bool) : World :=
  { w with tunnel := tunnel, sSession := sSession }

/-- A `GOAWAY` was received. -/
@[simps -fullyApplied]
def setGoaway (w : World) : World := { w with goawayRecv := true }

/-- A `GOAWAY` that ends the session is queued: no `RST_STREAM` is sent any more, also none of those in the
queue. -/
@[simps -fullyApplied]
def setGoawayTerm (w : World) : World := { w with goawayTerm := true, closeOnSend := [] }

/-- `session_predicate_request_headers_send` refuses new requests. -/
def refusesRequests (w : World) : Bool := w.goawayRecv || w.goawayTerm

/-- Note an observation. -/
@[simps -fullyApplied]
def log (w : World) (o : Obs) : World := { w with trace := w.trace ++ [o] }

end World

/-! ### Access to the objects -/

/-- A client that is used must not have been freed. -/
def getClient (c : ClientId) : SysM Client := do
  match (← get).clients c with
  | some cl => return cl
  | none => throw (.clientFreed c)

/-- A relay whose fields are read must not have been freed. -/
def getRelay (r : RelayId) : SysM Relay := do
  match (← get).relays r with
  | some rel => return rel
  | none => throw (.relayFreed r)

def putClient (c : ClientId) (cl : Client) : SysM Unit := modify (·.setClient c (some cl))

def putRelay (r : RelayId) (rel : Relay) : SysM Unit := modify (·.setRelay r rel)

def note (o : Obs) : SysM Unit := modify (·.log o)

/-- `session == NULL` in a call of an nghttp2 function. -/
def needSession (session : Bool) : SysM Unit := if session then pure () else throw .nullSession

end H2ClientProxy
