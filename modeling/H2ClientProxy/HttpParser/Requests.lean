import H2ClientProxy.HttpParser.Execute

/-!
# The requests of a connection

What the callbacks of `client.c` make of the callbacks of the parser, as far as the headers and the
bodies of the requests are concerned: `client_msg_begin` makes a new header, `client_url_complete`,
`client_header_fieldcb`, `client_header_valuecb` and `client_headers_completecb` fill it, and
`client_bodycb` gets the pieces of the body.  (`Equiv/Connection.lean` connects this with the callbacks
of `Client.lean`, which also look after the relays.)
-/

namespace H2ClientProxy

/-- A request as far as it has been parsed. -/
structure ParsedRequest where
  header : Header
  /-- `on_headers_complete` was called -/
  complete : Bool := false
  /-- the bytes that were given to `on_body` -/
  body : Bytes := []
  deriving DecidableEq, Repr

/-- What a callback does to the header of the request; `none` when an `assert` fails. -/
def Callback.onHeader (h : Header) : Callback → Option Header
  | .url data => some (headerSetUrl h data)
  | .headerField data => headerAppendField h data
  | .headerValue data => some (headerAppendValue h data)
  | .headersComplete method => headerAppendComplete (headerSetMethod h method.str)
  | _ => some h

/-- What a callback does to the last request. -/
def Callback.onRequest (req : ParsedRequest) (cb : Callback) : Option ParsedRequest :=
  (cb.onHeader req.header).map fun h =>
    match cb with
    | .headersComplete _ => { req with header := h, complete := true }
    | .body data => { req with header := h, body := req.body ++ data }
    | _ => { req with header := h }

/-- What a callback does to the requests, the last of which is the newest. -/
def Callback.onRequests (reqs : List ParsedRequest) (cb : Callback) : Option (List ParsedRequest) :=
  match cb with
  | .messageBegin => some (reqs ++ [{ header := headerNew (reqs.length + 1) }])
  | cb =>
    match reqs.getLast? with
    | none => none
    | some req => (cb.onRequest req).map fun req => reqs.dropLast ++ [req]

/-- The parser of a client, and the requests it has delivered. -/
structure Connection where
  parser : HttpParser := .init
  requests : List ParsedRequest := []
  deriving DecidableEq, Repr

/-- `client_readcb`, when `recv` returns `data`. -/
def Connection.recv (k : Connection) (data : Bytes) : Option Connection :=
  let out := httpParserExecute k.parser data
  (out.2.foldlM Callback.onRequests k.requests).map fun reqs => ⟨out.1, reqs⟩

/-- The pieces are received one after the other. -/
def Connection.feed (k : Connection) (pieces : List Bytes) : Option Connection :=
  pieces.foldlM Connection.recv k

end H2ClientProxy
