import H2ClientProxy.Header
import H2ClientProxy.HttpParser.Url

/-!
# The request parser: `http_parser_execute_`

`http_parser_execute_` on a parser for requests (`HTTP_REQUEST`), with `HTTP_PARSER_STRICT` 1 and with
callbacks that return 0, as those of `client.c` do.  What it does is the list of the callbacks it makes.

* `Exec` is the parser, the marks and the callbacks made so far, while a piece of input is read.  A mark
  is a pointer into the piece; here it is the text between that pointer and the current byte.
* `execByte` is the `switch` of the loop; where the source goes to `reexecute_byte` it calls the function
  of the next state.  The source takes the bytes of a body that are there at once, `execByte` takes them
  one by one.
* The states of responses, and `s_start_req_or_res`, are never reached and are left out.
-/

namespace H2ClientProxy

/-! ### Methods -/

/-- `enum http_method`. -/
inductive HttpMethod where
  | delete | get | head | post | put | connect | options | trace | copy | lock | mkcol | move
  | propfind | proppatch | search | unlock | report | mkactivity | checkout | merge | msearch
  | notify | subscribe | unsubscribe | patch | purge
  deriving DecidableEq, Repr

/-- `method_strings`. -/
def HttpMethod.str : HttpMethod → Bytes
  | .delete => bytes "DELETE"
  | .get => bytes "GET"
  | .head => bytes "HEAD"
  | .post => bytes "POST"
  | .put => bytes "PUT"
  | .connect => bytes "CONNECT"
  | .options => bytes "OPTIONS"
  | .trace => bytes "TRACE"
  | .copy => bytes "COPY"
  | .lock => bytes "LOCK"
  | .mkcol => bytes "MKCOL"
  | .move => bytes "MOVE"
  | .propfind => bytes "PROPFIND"
  | .proppatch => bytes "PROPPATCH"
  | .search => bytes "SEARCH"
  | .unlock => bytes "UNLOCK"
  | .report => bytes "REPORT"
  | .mkactivity => bytes "MKACTIVITY"
  | .checkout => bytes "CHECKOUT"
  | .merge => bytes "MERGE"
  | .msearch => bytes "M-SEARCH"
  | .notify => bytes "NOTIFY"
  | .subscribe => bytes "SUBSCRIBE"
  | .unsubscribe => bytes "UNSUBSCRIBE"
  | .patch => bytes "PATCH"
  | .purge => bytes "PURGE"

/-- The method that the first letter stands for until another letter shows. -/
def firstMethod (ch : UInt8) : Option HttpMethod :=
  if ch = ascii 'C' then some .connect
  else if ch = ascii 'D' then some .delete
  else if ch = ascii 'G' then some .get
  else if ch = ascii 'H' then some .head
  else if ch = ascii 'L' then some .lock
  else if ch = ascii 'M' then some .mkcol
  else if ch = ascii 'N' then some .notify
  else if ch = ascii 'O' then some .options
  else if ch = ascii 'P' then some .post
  else if ch = ascii 'R' then some .report
  else if ch = ascii 'S' then some .subscribe
  else if ch = ascii 'T' then some .trace
  else if ch = ascii 'U' then some .unlock
  else none

/-! ### The parser -/

/-- The values of `enum http_errno` that the parser of requests sets. -/
inductive HttpErrno where
  | invalidEofState | headerOverflow | closedConnection | invalidVersion | invalidMethod
  | invalidUrl | lfExpected | invalidHeaderToken | invalidContentLength | invalidChunkSize
  | invalidConstant | strict | unknown
  deriving DecidableEq, Repr

/-- `enum state`. -/
inductive ParserState where
  | dead
  | startReq
  | reqMethod
  /-- `s_req_spaces_before_url` and the states of `parse_url_char_` -/
  | url (s : UrlState)
  | reqHttpStart | reqHttpH | reqHttpHT | reqHttpHTT | reqHttpHTTP
  | reqFirstHttpMajor | reqHttpMajor | reqFirstHttpMinor | reqHttpMinor
  | reqLineAlmostDone
  | headerFieldStart | headerField | headerValueStart | headerValue | headerValueLws
  | headerAlmostDone
  | chunkSizeStart | chunkSize | chunkParameters | chunkSizeAlmostDone
  | headersAlmostDone
  | chunkData | chunkDataAlmostDone | chunkDataDone
  | bodyIdentity | bodyIdentityEof
  deriving DecidableEq, Repr

/-- `PARSING_HEADER`. -/
def ParserState.parsingHeader : ParserState → Bool
  | .chunkData | .chunkDataAlmostDone | .chunkDataDone | .bodyIdentity | .bodyIdentityEof => false
  | _ => true

/-- `enum header_states`. -/
inductive HeaderState where
  | general | c | co | con
  | matchingConnection | matchingProxyConnection | matchingContentLength
  | matchingTransferEncoding | matchingUpgrade
  | connection | contentLength | transferEncoding | upgrade
  | matchingTransferEncodingChunked | matchingConnectionKeepAlive | matchingConnectionClose
  | transferEncodingChunked | connectionKeepAlive | connectionClose
  deriving DecidableEq, Repr

/-- `enum flags`; `F_SKIPBODY` is never set. -/
structure ParserFlags where
  chunked : Bool := false
  connectionKeepAlive : Bool := false
  connectionClose : Bool := false
  trailing : Bool := false
  upgrade : Bool := false
  deriving DecidableEq, Repr

/-- `ULLONG_MAX`. -/
def ullongMax : ℕ := 2 ^ 64 - 1

/-- `struct http_parser`. -/
structure HttpParser where
  state : ParserState := .startReq
  headerState : HeaderState := .general
  index : ℕ := 0
  nread : ℕ := 0
  contentLength : ℕ := 0
  httpMajor : ℕ := 0
  httpMinor : ℕ := 0
  method : HttpMethod := .delete
  flags : ParserFlags := {}
  upgrade : Bool := false
  errno : Option HttpErrno := none
  deriving DecidableEq, Repr

/-- `http_parser_init_(parser, HTTP_REQUEST)`. -/
def HttpParser.init : HttpParser := {}

/-- `http_should_keep_alive_`, for a request. -/
def httpShouldKeepAlive (p : HttpParser) : Bool :=
  if p.httpMajor > 0 && p.httpMinor > 0 then !p.flags.connectionClose
  else p.flags.connectionKeepAlive

/-- `NEW_MESSAGE()`. -/
def newMessage (p : HttpParser) : ParserState := if httpShouldKeepAlive p then .startReq else .dead

/-! ### Callbacks and marks -/

/-- The calls through `http_parser_settings`. -/
inductive Callback where
  | messageBegin
  | url (data : Bytes)
  | headerField (data : Bytes)
  | headerValue (data : Bytes)
  /-- `on_headers_complete`, which reads `parser->method` -/
  | headersComplete (method : HttpMethod)
  | body (data : Bytes)
  | messageComplete
  deriving DecidableEq, Repr

/-- A call of `http_parser_execute_` under way. -/
structure Exec where
  parser : HttpParser
  headerFieldMark : Option Bytes := none
  headerValueMark : Option Bytes := none
  urlMark : Option Bytes := none
  bodyMark : Option Bytes := none
  calls : List Callback := []
  deriving DecidableEq, Repr

namespace Exec

/-- `SET_ERRNO` and `goto error`. -/
def fail (e : Exec) (errno : HttpErrno) : Exec :=
  { e with parser := { e.parser with errno := some errno } }

/-- `parser->state = state`. -/
def goto (e : Exec) (state : ParserState) : Exec :=
  { e with parser := { e.parser with state := state } }

/-- `parser->header_state = headerState`. -/
def header (e : Exec) (headerState : HeaderState) : Exec :=
  { e with parser := { e.parser with headerState := headerState } }

/-- `CALLBACK_NOTIFY`. -/
def notify (e : Exec) (cb : Callback) : Exec := { e with calls := e.calls ++ [cb] }

/-- `CALLBACK_DATA(header_field)`. -/
def dataHeaderField (e : Exec) : Exec :=
  match e.headerFieldMark with
  | none => e
  | some data => { e.notify (.headerField data) with headerFieldMark := none }

/-- `CALLBACK_DATA(header_value)`. -/
def dataHeaderValue (e : Exec) : Exec :=
  match e.headerValueMark with
  | none => e
  | some data => { e.notify (.headerValue data) with headerValueMark := none }

/-- `CALLBACK_DATA(url)`. -/
def dataUrl (e : Exec) : Exec :=
  match e.urlMark with
  | none => e
  | some data => { e.notify (.url data) with urlMark := none }

/-- `CALLBACK_DATA(body)`. -/
def dataBody (e : Exec) : Exec :=
  match e.bodyMark with
  | none => e
  | some data => { e.notify (.body data) with bodyMark := none }

/-- `MARK(header_field)`. -/
def markHeaderField (e : Exec) : Exec := { e with headerFieldMark := some (e.headerFieldMark.getD []) }

/-- `MARK(header_value)`. -/
def markHeaderValue (e : Exec) : Exec := { e with headerValueMark := some (e.headerValueMark.getD []) }

/-- `MARK(url)`. -/
def markUrl (e : Exec) : Exec := { e with urlMark := some (e.urlMark.getD []) }

/-- `MARK(body)`. -/
def markBody (e : Exec) : Exec := { e with bodyMark := some (e.bodyMark.getD []) }

/-- The byte `ch` is passed: it lies behind each mark that is set. -/
def pass (e : Exec) (ch : UInt8) : Exec :=
  { e with
    headerFieldMark := e.headerFieldMark.map (· ++ [ch])
    headerValueMark := e.headerValueMark.map (· ++ [ch])
    urlMark := e.urlMark.map (· ++ [ch])
    bodyMark := e.bodyMark.map (· ++ [ch]) }

end Exec

/-! ### The request line -/

def cr : UInt8 := 13

def lf : UInt8 := 10

/-- `s_start_req`. -/
def startReq (e : Exec) (ch : UInt8) : Exec :=
  if ch = cr || ch = lf then e
  else
    let p := { e.parser with flags := {}, contentLength := ullongMax }
    if !isAlpha ch then { e with parser := p }.fail .invalidMethod
    else
      match firstMethod ch with
      | none => { e with parser := { p with method := .delete, index := 1 } }.fail .invalidMethod
      | some m =>
        { e with parser := { p with method := m, index := 1, state := .reqMethod } }.notify
          .messageBegin

/-- The method after a letter that is not a blank: another method that starts with the same letters may
take its place.  At the index 2 any letter is accepted of most methods. -/
def matchMethod (m : HttpMethod) (index : ℕ) (ch : UInt8) : Except HttpErrno HttpMethod :=
  if ch = m.str.getD index 0 then .ok m
  else
    match m with
    | .connect =>
      if index = 1 ∧ ch = ascii 'H' then .ok .checkout
      else if index = 2 ∧ ch = ascii 'P' then .ok .copy
      else .error .unknown
    | .mkcol =>
      if index = 1 ∧ ch = ascii 'O' then .ok .move
      else if index = 1 ∧ ch = ascii 'E' then .ok .merge
      else if index = 1 ∧ ch = ascii '-' then .ok .msearch
      else if index = 2 ∧ ch = ascii 'A' then .ok .mkactivity
      else .error .unknown
    | .subscribe => if index = 1 ∧ ch = ascii 'E' then .ok .search else .error .unknown
    | _ =>
      if index = 1 ∧ m = .post then
        if ch = ascii 'R' then .ok .propfind
        else if ch = ascii 'U' then .ok .put
        else if ch = ascii 'A' then .ok .patch
        else .error .unknown
      else if index = 2 then
        if m = .put then .ok (if ch = ascii 'R' then .purge else .put)
        else if m = .unlock then .ok (if ch = ascii 'S' then .unsubscribe else .unlock)
        else .ok m
      else if index = 4 ∧ m = .propfind ∧ ch = ascii 'P' then .ok .proppatch
      else .error .invalidMethod

/-- `s_req_method`. -/
def reqMethod (e : Exec) (ch : UInt8) : Exec :=
  let p := e.parser
  if ch = 0 then e.fail .invalidMethod
  else if ch = ascii ' ' && p.method.str.getD p.index 0 = 0 then
    { e with parser := { p with state := .url .spacesBeforeUrl, index := p.index + 1 } }
  else
    match matchMethod p.method p.index ch with
    | .error errno => e.fail errno
    | .ok m => { e with parser := { p with method := m, index := p.index + 1 } }

/-- `parser->state = parse_url_char_(parser->state, ch)`. -/
def urlChar (e : Exec) (s : UrlState) (ch : UInt8) : Exec :=
  let s := parseUrlChar s ch
  if s = .dead then (e.goto (.url s)).fail .invalidUrl else e.goto (.url s)

/-- The states of the url. -/
def reqUrl (e : Exec) (s : UrlState) (ch : UInt8) : Exec :=
  match s with
  | .spacesBeforeUrl =>
    if ch = ascii ' ' then e
    else
      urlChar e.markUrl (if e.parser.method = .connect then .serverStart else .spacesBeforeUrl) ch
  | .schema | .schemaSlash | .schemaSlashSlash | .serverStart =>
    if ch = ascii ' ' || ch = cr || ch = lf then e.fail .invalidUrl else urlChar e s ch
  | _ =>
    if ch = ascii ' ' then (e.goto .reqHttpStart).dataUrl
    else if ch = cr || ch = lf then
      -- a request line without a version
      let p := { e.parser with
        httpMajor := 0, httpMinor := 9
        state := if ch = cr then .reqLineAlmostDone else .headerFieldStart }
      { e with parser := p }.dataUrl
    else urlChar e s ch

/-- `STRICT_CHECK(ch != c)`, and the next state. -/
def expectByte (e : Exec) (ch c : UInt8) (next : ParserState) : Exec :=
  if ch = c then e.goto next else e.fail .strict

/-- The value of a digit. -/
def digit (ch : UInt8) : ℕ := ch.toNat - 48

/-- `s_req_http_start`. -/
def reqHttpStart (e : Exec) (ch : UInt8) : Exec :=
  if ch = ascii 'H' then e.goto .reqHttpH
  else if ch = ascii ' ' then e
  else e.fail .invalidConstant

/-- `s_req_first_http_major`. -/
def reqFirstHttpMajor (e : Exec) (ch : UInt8) : Exec :=
  if ch < ascii '1' || ch > ascii '9' then e.fail .invalidVersion
  else { e with parser := { e.parser with httpMajor := digit ch, state := .reqHttpMajor } }

/-- `s_req_http_major`. -/
def reqHttpMajor (e : Exec) (ch : UInt8) : Exec :=
  if ch = ascii '.' then e.goto .reqFirstHttpMinor
  else if !isNum ch then e.fail .invalidVersion
  else
    let v := e.parser.httpMajor * 10 + digit ch
    let e := { e with parser := { e.parser with httpMajor := v } }
    if v > 999 then e.fail .invalidVersion else e

/-- `s_req_first_http_minor`. -/
def reqFirstHttpMinor (e : Exec) (ch : UInt8) : Exec :=
  if !isNum ch then e.fail .invalidVersion
  else { e with parser := { e.parser with httpMinor := digit ch, state := .reqHttpMinor } }

/-- `s_req_http_minor`. -/
def reqHttpMinor (e : Exec) (ch : UInt8) : Exec :=
  if ch = cr then e.goto .reqLineAlmostDone
  else if ch = lf then e.goto .headerFieldStart
  else if !isNum ch then e.fail .invalidVersion
  else
    let v := e.parser.httpMinor * 10 + digit ch
    let e := { e with parser := { e.parser with httpMinor := v } }
    if v > 999 then e.fail .invalidVersion else e

/-- `s_req_line_almost_done`. -/
def reqLineAlmostDone (e : Exec) (ch : UInt8) : Exec :=
  if ch = lf then e.goto .headerFieldStart else e.fail .lfExpected

/-! ### The end of the header -/

/-- `s_headers_done`: how the body is framed. -/
def headersDone (e : Exec) : Exec :=
  let e := { e with parser := { e.parser with nread := 0 } }
  let p := e.parser
  if p.upgrade then e.goto .bodyIdentityEof
  else if p.flags.chunked then e.goto .chunkSizeStart
  else if p.contentLength = 0 then (e.goto (newMessage p)).notify .messageComplete
  else if p.contentLength ≠ ullongMax then e.goto .bodyIdentity
  else (e.goto (newMessage p)).notify .messageComplete

/-- `s_headers_almost_done`. -/
def headersAlmostDone (e : Exec) (ch : UInt8) : Exec :=
  let p := e.parser
  if ch ≠ lf then e.fail .strict
  else if p.flags.trailing then (e.goto (newMessage p)).notify .messageComplete
  else
    let p := { p with upgrade := p.flags.upgrade || p.method = .connect }
    headersDone ({ e with parser := p }.notify (.headersComplete p.method))

/-! ### The header fields -/

/-- `TOKEN`: the table `tokens`, which also maps to lower case; 0 for no token. -/
def token (ch : UInt8) : UInt8 :=
  if isAlphanum ch then tolower ch
  else if ch ∈ bytes "!#$%&'*+-.^_`|~" then ch
  else 0

/-- `s_header_field_start`. -/
def headerFieldStart (e : Exec) (ch : UInt8) : Exec :=
  if ch = cr then e.goto .headersAlmostDone
  else if ch = lf then headersAlmostDone (e.goto .headersAlmostDone) ch
  else
    let c := token ch
    if c = 0 then e.fail .invalidHeaderToken
    else
      let headerState : HeaderState :=
        if c = ascii 'c' then .c
        else if c = ascii 'p' then .matchingProxyConnection
        else if c = ascii 't' then .matchingTransferEncoding
        else if c = ascii 'u' then .matchingUpgrade
        else .general
      let e := e.markHeaderField
      { e with parser := { e.parser with index := 0, state := .headerField, headerState := headerState } }

/-- The next letter of a word that is being matched; `index` is its position. -/
def matchWord (word : Bytes) (index : ℕ) (c : UInt8) (going done : HeaderState) : HeaderState :=
  if index > word.length || c ≠ word.getD index 0 then .general
  else if index = word.length - 1 then done
  else going

/-- The state of the field name after one more letter. -/
def nextFieldState (s : HeaderState) (index : ℕ) (c ch : UInt8) : HeaderState :=
  match s with
  | .general => .general
  | .c => if c = ascii 'o' then .co else .general
  | .co => if c = ascii 'n' then .con else .general
  | .con =>
    if c = ascii 'n' then .matchingConnection
    else if c = ascii 't' then .matchingContentLength
    else .general
  | .matchingConnection => matchWord (bytes "connection") index c s .connection
  | .matchingProxyConnection => matchWord (bytes "proxy-connection") index c s .connection
  | .matchingContentLength => matchWord (bytes "content-length") index c s .contentLength
  | .matchingTransferEncoding => matchWord (bytes "transfer-encoding") index c s .transferEncoding
  | .matchingUpgrade => matchWord (bytes "upgrade") index c s .upgrade
  | .connection | .contentLength | .transferEncoding | .upgrade =>
    if ch ≠ ascii ' ' then .general else s
  -- the states of a value do not occur in a name
  | s => s

/-- Whether `parser->index` is advanced. -/
def HeaderState.counts : HeaderState → Bool
  | .c | .co | .con | .matchingConnection | .matchingProxyConnection | .matchingContentLength
  | .matchingTransferEncoding | .matchingUpgrade => true
  | _ => false

/-- `s_header_field`. -/
def headerField (e : Exec) (ch : UInt8) : Exec :=
  let p := e.parser
  let c := token ch
  if c ≠ 0 then
    let index := if p.headerState.counts then p.index + 1 else p.index
    { e with
      parser := { p with index := index, headerState := nextFieldState p.headerState index c ch } }
  else if ch = ascii ':' then (e.goto .headerValueStart).dataHeaderField
  else if ch = cr then (e.goto .headerAlmostDone).dataHeaderField
  else if ch = lf then (e.goto .headerFieldStart).dataHeaderField
  else e.fail .invalidHeaderToken

/-- `s_header_value_start`. -/
def headerValueStart (e : Exec) (ch : UInt8) : Exec :=
  if ch = ascii ' ' || ch = ascii '\t' then e
  else
    let e := { e.markHeaderValue with parser := { e.parser with state := .headerValue, index := 0 } }
    let p := e.parser
    if ch = cr then ((e.header .general).goto .headerAlmostDone).dataHeaderValue
    else if ch = lf then (e.goto .headerFieldStart).dataHeaderValue
    else
      let c := lower ch
      match p.headerState with
      | .upgrade =>
        { e with
          parser := { p with flags := { p.flags with upgrade := true }, headerState := .general } }
      | .transferEncoding =>
        e.header (if c = ascii 'c' then .matchingTransferEncodingChunked else .general)
      | .contentLength =>
        if !isNum ch then e.fail .invalidContentLength
        else { e with parser := { p with contentLength := digit ch } }
      | .connection =>
        e.header (if c = ascii 'k' then .matchingConnectionKeepAlive
          else if c = ascii 'c' then .matchingConnectionClose
          else .general)
      | _ => e.header .general

/-- `s_header_almost_done`. -/
def headerAlmostDone (e : Exec) (ch : UInt8) : Exec :=
  let p := e.parser
  if ch ≠ lf then e.fail .strict
  else
    let flags :=
      match p.headerState with
      | .connectionKeepAlive => { p.flags with connectionKeepAlive := true }
      | .connectionClose => { p.flags with connectionClose := true }
      | .transferEncodingChunked => { p.flags with chunked := true }
      | _ => p.flags
    { e with parser := { p with state := .headerValueLws, flags := flags } }

/-- One more digit of a length in the base `base`, modulo `2 ^ 64`; `none` when the source finds an
overflow. -/
def addDigit (contentLength base value : ℕ) : Option ℕ :=
  let t := (contentLength * base + value) % 2 ^ 64
  if t < contentLength || t = ullongMax then none else some t

/-- `s_header_value`. -/
def headerValueChar (e : Exec) (ch : UInt8) : Exec :=
  let p := e.parser
  if ch = cr then (e.goto .headerAlmostDone).dataHeaderValue
  else if ch = lf then headerAlmostDone (e.goto .headerAlmostDone).dataHeaderValue ch
  else
    let c := lower ch
    let matching (word : Bytes) (done : HeaderState) : Exec :=
      { e with parser := { p with
        index := p.index + 1, headerState := matchWord word (p.index + 1) c p.headerState done } }
    match p.headerState with
    | .general => e
    | .contentLength =>
      if ch = ascii ' ' then e
      else if !isNum ch then e.fail .invalidContentLength
      else
        match addDigit p.contentLength 10 (digit ch) with
        | none => e.fail .invalidContentLength
        | some t => { e with parser := { p with contentLength := t } }
    | .matchingTransferEncodingChunked => matching (bytes "chunked") .transferEncodingChunked
    | .matchingConnectionKeepAlive => matching (bytes "keep-alive") .connectionKeepAlive
    | .matchingConnectionClose => matching (bytes "close") .connectionClose
    | .transferEncodingChunked | .connectionKeepAlive | .connectionClose =>
      if ch ≠ ascii ' ' then e.header .general else e
    | _ => e.header .general

/-- `s_header_value_lws`. -/
def headerValueLws (e : Exec) (ch : UInt8) : Exec :=
  if ch = ascii ' ' || ch = ascii '\t' then e.goto .headerValueStart
  else headerFieldStart (e.goto .headerFieldStart) ch

/-! ### The body -/

/-- `s_body_identity`, for one byte; at the last one follows `s_message_done`. -/
def bodyIdentity (e : Exec) (ch : UInt8) : Exec :=
  let e := { e.markBody with
    parser := { e.parser with contentLength := e.parser.contentLength - 1 } }
  if e.parser.contentLength = 0 then
    let e := { e with bodyMark := e.bodyMark.map (· ++ [ch]) }.dataBody
    (e.goto (newMessage e.parser)).notify .messageComplete
  else e

/-- `unhex`; only the first half of the table is written out, so the other entries are 0. -/
def unhex (ch : UInt8) : Option ℕ :=
  if isNum ch then some (digit ch)
  else if ascii 'A' ≤ ch && ch ≤ ascii 'F' then some (ch.toNat - 55)
  else if ascii 'a' ≤ ch && ch ≤ ascii 'f' then some (ch.toNat - 87)
  else if 128 ≤ ch then some 0
  else none

/-- `s_chunk_size_start`. -/
def chunkSizeStart (e : Exec) (ch : UInt8) : Exec :=
  match unhex ch with
  | none => e.fail .invalidChunkSize
  | some v => { e with parser := { e.parser with contentLength := v, state := .chunkSize } }

/-- `s_chunk_size`. -/
def chunkSize (e : Exec) (ch : UInt8) : Exec :=
  if ch = cr then e.goto .chunkSizeAlmostDone
  else
    match unhex ch with
    | none =>
      if ch = ascii ';' || ch = ascii ' ' then e.goto .chunkParameters
      else e.fail .invalidChunkSize
    | some v =>
      match addDigit e.parser.contentLength 16 v with
      | none => e.fail .invalidContentLength
      | some t => { e with parser := { e.parser with contentLength := t } }

/-- `s_chunk_parameters`. -/
def chunkParameters (e : Exec) (ch : UInt8) : Exec :=
  if ch = cr then e.goto .chunkSizeAlmostDone else e

/-- `s_chunk_size_almost_done`. -/
def chunkSizeAlmostDone (e : Exec) (ch : UInt8) : Exec :=
  let p := e.parser
  if ch ≠ lf then e.fail .strict
  else if p.contentLength = 0 then
    { e with parser := { p with
      nread := 0, flags := { p.flags with trailing := true }, state := .headerFieldStart } }
  else { e with parser := { p with nread := 0, state := .chunkData } }

/-- `s_chunk_data`, for one byte. -/
def chunkData (e : Exec) : Exec :=
  let left := e.parser.contentLength - 1
  { e.markBody with parser := { e.parser with
    contentLength := left, state := if left = 0 then .chunkDataAlmostDone else .chunkData } }

/-- `s_chunk_data_almost_done`. -/
def chunkDataAlmostDone (e : Exec) (ch : UInt8) : Exec :=
  if ch ≠ cr then e.fail .strict else (e.goto .chunkDataDone).dataBody

/-- `s_chunk_data_done`. -/
def chunkDataDone (e : Exec) (ch : UInt8) : Exec :=
  if ch ≠ lf then e.fail .strict
  else { e with parser := { e.parser with nread := 0, state := .chunkSizeStart } }

/-! ### The loop -/

/-- The `switch` over the state. -/
def execState (e : Exec) (ch : UInt8) : Exec :=
  match e.parser.state with
  | .dead => if ch = cr || ch = lf then e else e.fail .closedConnection
  | .startReq => startReq e ch
  | .reqMethod => reqMethod e ch
  | .url s => reqUrl e s ch
  | .reqHttpStart => reqHttpStart e ch
  | .reqHttpH => expectByte e ch (ascii 'T') .reqHttpHT
  | .reqHttpHT => expectByte e ch (ascii 'T') .reqHttpHTT
  | .reqHttpHTT => expectByte e ch (ascii 'P') .reqHttpHTTP
  | .reqHttpHTTP => expectByte e ch (ascii '/') .reqFirstHttpMajor
  | .reqFirstHttpMajor => reqFirstHttpMajor e ch
  | .reqHttpMajor => reqHttpMajor e ch
  | .reqFirstHttpMinor => reqFirstHttpMinor e ch
  | .reqHttpMinor => reqHttpMinor e ch
  | .reqLineAlmostDone => reqLineAlmostDone e ch
  | .headerFieldStart => headerFieldStart e ch
  | .headerField => headerField e ch
  | .headerValueStart => headerValueStart e ch
  | .headerValue => headerValueChar e ch
  | .headerValueLws => headerValueLws e ch
  | .headerAlmostDone => headerAlmostDone e ch
  | .chunkSizeStart => chunkSizeStart e ch
  | .chunkSize => chunkSize e ch
  | .chunkParameters => chunkParameters e ch
  | .chunkSizeAlmostDone => chunkSizeAlmostDone e ch
  | .headersAlmostDone => headersAlmostDone e ch
  | .chunkData => chunkData e
  | .chunkDataAlmostDone => chunkDataAlmostDone e ch
  | .chunkDataDone => chunkDataDone e ch
  | .bodyIdentity => bodyIdentity e ch
  | .bodyIdentityEof => e.markBody

/-- `HTTP_MAX_HEADER_SIZE`. -/
def httpMaxHeaderSize : ℕ := 80 * 1024

/-- One time around the loop. -/
def execByte (e : Exec) (ch : UInt8) : Exec :=
  if e.parser.state.parsingHeader then
    let e := { e with parser := { e.parser with nread := e.parser.nread + 1 } }
    if e.parser.nread > httpMaxHeaderSize then e.fail .headerOverflow
    else (execState e ch).pass ch
  else (execState e ch).pass ch

/-- The loop; an error ends it. -/
def execBytes : Bytes → Exec → Exec
  | [], e => e
  | ch :: rest, e =>
    let e := execByte e ch
    if e.parser.errno.isSome then e else execBytes rest e

/-- The marks at the start of a piece of input. -/
def Exec.start (p : HttpParser) : Exec :=
  { parser := p
    headerFieldMark := if p.state = .headerField then some [] else none
    headerValueMark := if p.state = .headerValue then some [] else none
    urlMark :=
      match p.state with
      | .url .spacesBeforeUrl => none
      | .url _ => some []
      | _ => none }

/-- `http_parser_execute_`: the parser afterwards, and the callbacks it made. -/
def httpParserExecute (p : HttpParser) (data : Bytes) : HttpParser × List Callback :=
  if p.errno.isSome then (p, [])
  else if data.isEmpty then
    match p.state with
    | .bodyIdentityEof => (p, [.messageComplete])
    | .dead | .startReq => (p, [])
    | _ => ({ p with errno := some .invalidEofState }, [])
  else
    let e := execBytes data (.start p)
    if e.parser.errno.isSome then (e.parser, e.calls)
    else
      let e := e.dataHeaderField.dataHeaderValue.dataUrl.dataBody
      (e.parser, e.calls)

end H2ClientProxy
