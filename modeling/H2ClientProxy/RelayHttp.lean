import H2ClientProxy.Header
import H2ClientProxy.HttpParser.Url
import H2ClientProxy.Lib.Machine
import H2ClientProxy.World
import Mathlib.Logic.Function.Basic

/-!
# Relays over HTTP/1: `relay_http.c`

A relay has a connection to an upstream server.  When a response is complete the relay is put into a pool
of idle relays, and `relay_create` takes it out again for the next request to this server.

* The callback of a relay is client code that may call the functions of `relay_sys`, so an event is
  handled in tasks (`Task`): `Relays.next` runs the next one, a task may call back, and `.ret` returns.
* The calls that `http_parser_execute_` makes on a piece of input are an input of the machine, in any
  order.  The pool does not depend on what the parser takes for a response.
* Of an `ep_buf` there is what it is enabled for and what has been written to it (`Conn`).
* `relay_get_header`, `relay_get_body` and `relay_get_status` change nothing and are left out, and so are
  the members that only they read.
-/

namespace H2ClientProxy.RelayHttp

/-! ### The state -/

/-- The size of the `host` of a relay. -/
def HOST_LENGTH : ℕ := 255

def IDLE_RELAY_BUCKET_COUNT : ℕ := 512

/-- The events of `ep_buf.h`, as a mask. -/
structure Detect where
  read : Bool := false
  write : Bool := false
  deriving DecidableEq, Repr

/-- An `ep_buf`: the events it calls back for, and the bytes that `ep_buf_write` was given. -/
structure Conn where
  detect : Detect := {}
  written : Bytes := []
  deriving DecidableEq, Repr

/-- `ep_buf_enable`, which replaces the mask. -/
def Conn.enable (c : Conn) (what : Detect) : Conn := { c with detect := what }

/-- `ep_buf_disable` with `EP_BUF_READ`: the socket is not registered for anything any more. -/
def Conn.disable (c : Conn) : Conn := { c with detect := {} }

/-- `ep_buf_write`. -/
def Conn.write (c : Conn) (data : Bytes) : Conn := { c with written := c.written ++ data }

abbrev TmrId := ℕ

/-- The callback of a timer: `relay_conn_tmrcb` or `on_responsecb`. -/
inductive TmrCallback where
  | connected
  | response
  deriving DecidableEq, Repr

/-- A timer that has been added and has not fired. -/
structure Tmr where
  callback : TmrCallback
  relay : RelayId
  deriving DecidableEq, Repr

/-- `struct http_relay`. -/
structure HttpRelay where
  host : Bytes
  port : ℤ
  conn : Option Conn := none
  /-- `relay->dns_req != NULL`. -/
  dnsReq : Bool := false
  responseHeader : Option Header := none
  tmrConnected : Option TmrId := none
  isChunkPost : Bool := false
  connected : Bool := false
  /-- The caller of `relay_create`; `NULL` in the pool. -/
  args : Option ℕ := none
  isIdle : Bool := false
  /-- Nothing sets it. -/
  shouldFree : Bool := false
  relayStatus : RelayStatus := .connecting
  /-- The requests that were sent by this relay so far. -/
  requests : List Header := []
  deriving DecidableEq, Repr

/-- The callbacks that the parser of responses makes. -/
inductive ParserCall where
  | messageBegin
  | statusComplete (statusCode : ℤ)
  | url (data : Bytes)
  | headerField (data : Bytes)
  | headerValue (data : Bytes)
  | headersComplete
  | body (data : Bytes)
  | messageComplete
  deriving DecidableEq, Repr

/-- What is left to do of an event of a relay. -/
inductive Task where
  /-- The parser makes a callback. -/
  | call (c : ParserCall)
  /-- The rest of `relay_message_completecb`: `relay_sys_reuse_relay`. -/
  | reuse
  /-- The rest of `relay_conncb` for a new connection. -/
  | enableRead
  /-- The rest of `relay_conncb` after `http_parser_execute_`; `ok` when `http_errno` is `HPE_OK`. -/
  | readEnd (ok : Bool)
  | free
  deriving DecidableEq, Repr

/-- A callback of a client, and whether its relay was idle. -/
structure Note where
  relay : RelayId
  what : RelayWhat
  idle : Bool
  deriving DecidableEq, Repr

/-- All relays, and `s_idle_relay_bucket`. -/
structure Relays where
  relays : RelayId → Option HttpRelay := fun _ => none
  nextRelay : RelayId := 0
  buckets : ℕ → List RelayId := fun _ => []
  timers : TmrId → Option Tmr := fun _ => none
  nextTimer : TmrId := 0
  /-- The relay whose event is handled, and what is left to do for it. -/
  handling : Option (RelayId × List Task) := none
  /-- A client callback runs. -/
  calling : Bool := false
  calls : List Note := []

/-- What goes wrong. -/
inductive RelayFault where
  /-- An assertion of `relay_sys_reuse_relay` fails. -/
  | assertFailed
  | relayFreed (r : RelayId)
  | nullConn
  /-- There is no header, or an assertion of `header.c` fails. -/
  | headerFault
  /-- The head of a request leaves its buffers. -/
  | overflow
  deriving DecidableEq, Repr

abbrev RelayM := EStateM RelayFault Relays

namespace Relays

/-- Replace (or free) a relay. -/
def setRelay (s : Relays) (r : RelayId) (relay : Option HttpRelay) : Relays :=
  { s with relays := Function.update s.relays r relay }

/-- Start or stop a timer. -/
def setTimer (s : Relays) (t : TmrId) (tm : Option Tmr) : Relays :=
  { s with timers := Function.update s.timers t tm }

/-- `ep_timer_new` and `ep_timer_add` with no delay. -/
def addTimer (s : Relays) (tm : Tmr) : Relays :=
  { s.setTimer s.nextTimer (some tm) with nextTimer := s.nextTimer + 1 }

/-- `list_del` of a relay in the pool. -/
def unlink (s : Relays) (r : RelayId) : Relays := { s with buckets := fun h => (s.buckets h).erase r }

/-- `list_add_tail` of a relay to a bucket. -/
def link (s : Relays) (r : RelayId) (h : ℕ) : Relays :=
  { s with buckets := Function.update s.buckets h (s.buckets h ++ [r]) }

/-- What is left to do of the event. -/
def setTasks (s : Relays) (r : RelayId) (tasks : List Task) : Relays :=
  { s with handling := some (r, tasks) }

end Relays

def getRelay (r : RelayId) : RelayM HttpRelay := do
  match (← get).relays r with
  | some relay => return relay
  | none => throw (.relayFreed r)

def putRelay (r : RelayId) (relay : HttpRelay) : RelayM Unit := modify (·.setRelay r (some relay))

/-- `relay->cb(relay, what, relay->args)`. -/
def callback (r : RelayId) (what : RelayWhat) : RelayM Unit := do
  let relay ← getRelay r
  modify fun s => { s with calls := s.calls ++ [⟨r, what, relay.isIdle⟩], calling := true }

/-! ### The pool -/

/-- A `char`, which is signed, as a `uint32_t`. -/
def charToU32 (c : UInt8) : ℕ := if c < 128 then c.toNat else c.toNat + (2 ^ 32 - 2 ^ 8)

/-- `relay_count_hash`. -/
def relayCountHash (host : Bytes) : ℕ :=
  host.foldl (fun res c => (res + charToU32 c) % 2 ^ 32) 0 % IDLE_RELAY_BUCKET_COUNT

/-- `relay_sys_reuse_relay`. -/
def relaySysReuseRelay (r : RelayId) : RelayM Unit := do
  let relay ← getRelay r
  if relay.shouldFree || relay.isIdle || relay.dnsReq || relay.conn.isNone then throw .assertFailed
  else
    putRelay r { relay with
      relayStatus := .connected, args := none, isIdle := true, responseHeader := none }
    modify (·.link r (relayCountHash relay.host))

/-- The test of `relay_sys_find_alive_relay`. -/
def HttpRelay.serves (relay : HttpRelay) (host : Bytes) (port : ℤ) : Bool :=
  strcasecmp relay.host host && relay.port = port

/-- The loop of `relay_sys_find_alive_relay`. -/
def findAlive (host : Bytes) (port : ℤ) : List RelayId → RelayM (Option RelayId)
  | [] => return none
  | r :: rs => do
    let relay ← getRelay r
    if relay.serves host port then
      putRelay r { relay with isIdle := false }
      modify (·.unlink r)
      return some r
    else findAlive host port rs

/-- `relay_sys_find_alive_relay`. -/
def relaySysFindAliveRelay (host : Bytes) (port : ℤ) : RelayM (Option RelayId) := do
  findAlive host port ((← get).buckets (relayCountHash host))

/-- `relay_free`.  The timer is not asked whether it is pending: `ep_timer_free` takes it out of the list
in any case. -/
def relayFree (r : RelayId) : RelayM Unit := do
  let relay ← getRelay r
  if relay.isIdle then modify (·.unlink r) else pure ()
  match relay.tmrConnected with
  | some t => modify (·.setTimer t none)
  | none => pure ()
  modify (·.setRelay r none)

/-! ### The functions for the client -/

/-- A relay for a server, whose name is looked up. -/
def newRelay (host : Bytes) (port : ℤ) : HttpRelay where
  host := strncpy host HOST_LENGTH
  port := port
  dnsReq := true

/-- `relay_create`. -/
def relayCreate (host : Bytes) (port : ℤ) (args : ℕ) : RelayM RelayId := do
  let r ← match ← relaySysFindAliveRelay host port with
    | some r => pure r
    | none => do
      let r := (← get).nextRelay
      modify fun s => { s.setRelay r (some (newRelay host port)) with nextRelay := r + 1 }
      pure r
  let relay ← getRelay r
  let relay := { relay with args := some args }
  if relay.relayStatus = .connected then
    match relay.conn with
    | none => throw .nullConn
    | some conn =>
      let t := (← get).nextTimer
      putRelay r { relay with
        conn := some (conn.enable { read := true }), tmrConnected := some t }
      modify (·.addTimer { callback := .connected, relay := r })
  else putRelay r relay
  return r

/-- The target of the request line: the text from the path on, or what there is behind it.  `none` when
it does not fit into `url`. -/
def requestUrl (url : Bytes) : Option Bytes :=
  let ups := (httpParserParseUrl .zero url false).2
  let text :=
    if ups.fieldSet .path then url.drop (ups.fieldData .path).off
    else
      bytes "/"
        ++ (if ups.fieldSet .query then bytes "?" ++ ups.text url .query else [])
        ++ (if ups.fieldSet .fragment then bytes "#" else [])
        -- this `memcpy` is not part of the `if` before it
        ++ ups.text url .fragment
  if text.length < 1024 then some text else none

/-- The text for one header field. -/
def requestField (pos : Field) : Bytes :=
  (if strcasecmp pos.field (bytes "proxy-connection") then bytes "Connection" else pos.field)
    ++ bytes ": " ++ pos.value ++ crlf

/-- `sizeof(buf)`. -/
def requestBufSize : ℕ := 20 * 1024

/-- The request line and the header fields; `none` when they do not fit into `buf`. -/
def requestHead (header : Header) : Option Bytes := do
  let url ← header.url
  let url ← requestUrl url
  let buf ← appendFormat [] requestBufSize
    (header.method ++ bytes " " ++ url ++ bytes " HTTP/1.1\r\n")
  let buf ← header.listHeaders.foldlM
    (fun buf pos => appendFormat buf requestBufSize (requestField pos)) buf
  if buf.length + 2 < requestBufSize then some (buf ++ crlf) else none

/-- `strcasecmp(header->method, "connect") == 0`. -/
def isConnect (header : Header) : Bool := strcasecmp header.method (bytes "connect")

/-- The request says that its body comes in chunks. -/
def chunkedPost (header : Header) : Bool :=
  (headerValue header (bytes "Transfer-Encoding")).any fun te => strcasecmp te (bytes "chunked")

/-- A function of `ep_buf_proto` for the connection of a relay. -/
def updateConn (r : RelayId) (f : Conn → Conn) : RelayM Unit := do
  let relay ← getRelay r
  match relay.conn with
  | none => throw .nullConn
  | some conn => putRelay r { relay with conn := some (f conn) }

/-- `conn_proto->write`. -/
def writeConn (r : RelayId) (data : Bytes) : RelayM Unit := updateConn r (·.write data)

/-- `relay_send_request`. -/
def relaySendRequest (r : RelayId) (header : Header) : RelayM Unit := do
  let relay ← getRelay r
  let relay := { relay with requests := relay.requests ++ [header] }
  if isConnect header then
    putRelay r { relay with relayStatus := .connected }
    modify (·.addTimer { callback := .response, relay := r })
  else
    putRelay r { relay with isChunkPost := relay.isChunkPost || chunkedPost header }
    match requestHead header with
    | none => throw .overflow
    | some buf =>
      writeConn r buf
      let relay ← getRelay r
      putRelay r { relay with relayStatus := .requestSent }

/-- `relay_write_body`. -/
def relayWriteBody (r : RelayId) (data : Bytes) : RelayM Unit := do
  let relay ← getRelay r
  if relay.isChunkPost then writeConn r (chunkSizeLine data.length) else pure ()
  writeConn r data
  if relay.isChunkPost then writeConn r crlf else pure ()

/-- `relay_complete_request`. -/
def relayCompleteRequest (r : RelayId) : RelayM Unit := do
  let relay ← getRelay r
  if relay.isChunkPost then writeConn r (bytes "0\r\n\r\n") else pure ()

/-- `relay_close`. -/
def relayClose (r : RelayId) : RelayM Unit := relayFree r

/-- `relay_suspend_read`. -/
def relaySuspendRead (r : RelayId) : RelayM Unit := updateConn r Conn.disable

/-- `relay_resume_read`. -/
def relayResumeRead (r : RelayId) : RelayM Unit := updateConn r (·.enable { read := true })

/-! ### Events -/

/-- `relay_has_length_info`; `none` when there is no header. -/
def relayHasLengthInfo (relay : HttpRelay) : Option Bool :=
  relay.responseHeader.map fun h => (headerValue h (bytes "content-length")).isSome

/-- What the client is told when the connection of a relay breaks. -/
def connErrWhat (relay : HttpRelay) : RelayWhat :=
  if relayHasLengthInfo relay = some false then .msgComplete
  else if relay.relayStatus.toNat < RelayStatus.connected.toNat then .errConnFailed
  else .errConnTerminate

/-- `relay_handle_conn_err`. -/
def relayHandleConnErr (r : RelayId) : RelayM Unit := do
  let relay ← getRelay r
  putRelay r { relay with conn := none }
  if relay.isIdle then relayFree r
  else
    modify (·.setTasks r [.free])
    callback r (connErrWhat relay)

/-- A change of the response header by a callback of the parser. -/
def updateHeader (r : RelayId) (f : Header → Option Header) : RelayM Unit := do
  let relay ← getRelay r
  match relay.responseHeader.bind f with
  | none => throw .headerFault
  | some h => putRelay r { relay with responseHeader := some h }

/-- The callbacks of `htp_hooks`, with `tasks` left to do. -/
def parserCall (r : RelayId) (tasks : List Task) : ParserCall → RelayM Unit
  | .messageBegin => do
    let relay ← getRelay r
    putRelay r { relay with responseHeader := some (headerNew 0) }
  | .statusComplete statusCode => updateHeader r fun h => some { h with statusCode := statusCode }
  | .url data => updateHeader r fun h => some (headerSetUrl h data)
  | .headerField data => updateHeader r fun h => headerAppendField h data
  | .headerValue data => updateHeader r fun h => some (headerAppendValue h data)
  | .headersComplete => do
    updateHeader r headerAppendComplete
    -- `RELAY_HEADER_COMPLETE` has the value of `RELAY_STATUS_CONNECTED`
    let relay ← getRelay r
    putRelay r { relay with relayStatus := .connected }
    callback r .headerComplete
  | .body _ => callback r .body
  | .messageComplete => do
    let relay ← getRelay r
    putRelay r { relay with relayStatus := .connected }
    modify (·.setTasks r (.reuse :: tasks))
    callback r .msgComplete

/-- A task, with `tasks` behind it. -/
def runTask (r : RelayId) (tasks : List Task) : Task → RelayM Unit
  | .call c => parserCall r tasks c
  | .reuse => relaySysReuseRelay r
  | .enableRead => relayResumeRead r
  | .readEnd ok => do
    let relay ← getRelay r
    if !ok && !relay.isIdle then
      modify (·.setTasks r (.free :: tasks))
      callback r .errResponseParseFailed
    else if relay.shouldFree then relayFree r
    else pure ()
  | .free => relayFree r

/-- The next task of the event, or its end. -/
def next : RelayM Unit := do
  match (← get).handling with
  | none => pure ()
  | some (_, []) => modify fun s => { s with handling := none }
  | some (r, task :: tasks) =>
    modify (·.setTasks r tasks)
    runTask r tasks task

/-- `relay_dns_resolved`; `ok` when `code` is 0. -/
def relayDnsResolved (r : RelayId) (ok : Bool) : RelayM Unit := do
  let relay ← getRelay r
  if !relay.dnsReq then pure ()
  else if ok then
    putRelay r { relay with dnsReq := false, conn := some { detect := { write := true } } }
  else
    putRelay r { relay with dnsReq := false }
    modify (·.setTasks r [.free])
    callback r .errDnsFailed

/-- `relay_conncb` with `EP_BUF_WRITE`. -/
def relayWritable (r : RelayId) : RelayM Unit := do
  let relay ← getRelay r
  if !relay.conn.any (·.detect.write) then pure ()
  else if relay.connected then pure ()
  else
    putRelay r { relay with connected := true }
    modify (·.setTasks r [.enableRead])
    callback r .connected

/-- `relay_conncb` with `EP_BUF_READ`: `read()` fails or is at the end (`none`), or the parser makes the
callbacks `calls` for what was read. -/
def relayReadable (r : RelayId) (res : Option (List ParserCall × Bool)) : RelayM Unit := do
  let relay ← getRelay r
  if !relay.conn.any (·.detect.read) then pure ()
  else
    match res with
    | none => relayHandleConnErr r
    | some (calls, ok) =>
      if relay.isIdle then relayHandleConnErr r
      else modify (·.setTasks r (calls.map .call ++ [.readEnd ok]))

/-- `relay_conncb` with `EP_BUF_ERROR`. -/
def relayConnError (r : RelayId) : RelayM Unit := do
  let relay ← getRelay r
  if relay.conn.isNone then pure () else relayHandleConnErr r

/-- `relay_conn_tmrcb`, which frees the timer that the relay points to, whichever has fired. -/
def relayConnTmrcb (r : RelayId) : RelayM Unit := do
  let relay ← getRelay r
  match relay.tmrConnected with
  | some t => modify (·.setTimer t none)
  | none => pure ()
  putRelay r { relay with tmrConnected := none }
  modify (·.setTasks r [])
  callback r .connected

/-- A timer fires; the parser makes the callbacks `calls` for the text of `on_responsecb`. -/
def timerFires (t : TmrId) (calls : List ParserCall) : RelayM Unit := do
  match (← get).timers t with
  | none => pure ()
  | some tm =>
    modify (·.setTimer t none)
    match tm.callback with
    | .connected => relayConnTmrcb tm.relay
    | .response => do
      let _ ← getRelay tm.relay
      modify (·.setTasks tm.relay (calls.map .call))

/-! ### Steps -/

/-- A call of the client. -/
inductive ClientCall where
  | create (host : Bytes) (port : ℤ) (args : ℕ)
  | sendRequest (r : RelayId) (header : Header)
  | writeBody (r : RelayId) (data : Bytes)
  | completeRequest (r : RelayId)
  | close (r : RelayId)
  | suspendRead (r : RelayId)
  | resumeRead (r : RelayId)
  deriving DecidableEq, Repr

/-- What happens to a relay. -/
inductive RelayEvent where
  | dnsResolved (r : RelayId) (ok : Bool)
  | writable (r : RelayId)
  | readable (r : RelayId) (res : Option (List ParserCall × Bool))
  | connError (r : RelayId)
  | timer (t : TmrId) (calls : List ParserCall)
  deriving DecidableEq, Repr

/-- What can happen next. -/
inductive RelayInput where
  | call (c : ClientCall)
  | event (e : RelayEvent)
  | next
  | ret
  deriving DecidableEq, Repr

def clientCall : ClientCall → RelayM Unit
  | .create host port args => do
    let _ ← relayCreate host port args
  | .sendRequest r header => relaySendRequest r header
  | .writeBody r data => relayWriteBody r data
  | .completeRequest r => relayCompleteRequest r
  | .close r => relayClose r
  | .suspendRead r => relaySuspendRead r
  | .resumeRead r => relayResumeRead r

/-- An event of a relay that does not exist does not happen. -/
def relayEvent : RelayEvent → RelayM Unit
  | .dnsResolved r ok => do
    if ((← get).relays r).isSome then relayDnsResolved r ok else pure ()
  | .writable r => do
    if ((← get).relays r).isSome then relayWritable r else pure ()
  | .readable r res => do
    if ((← get).relays r).isSome then relayReadable r res else pure ()
  | .connError r => do
    if ((← get).relays r).isSome then relayConnError r else pure ()
  | .timer t calls => timerFires t calls

/-- One step.  Client code runs between two events and in a callback; an event comes when no other one is
handled. -/
def relayStep (i : RelayInput) : RelayM Unit := do
  let s ← get
  match i with
  | .call c => if s.handling.isNone || s.calling then clientCall c else pure ()
  | .event e => if s.handling.isNone then relayEvent e else pure ()
  | .next => if s.calling then pure () else next
  | .ret => modify fun s => { s with calling := false }

/-- `http_relay_sys_init`. -/
def Relays.init : Relays := {}

end H2ClientProxy.RelayHttp
