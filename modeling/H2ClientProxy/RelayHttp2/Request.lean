import H2ClientProxy.Header
import H2ClientProxy.HttpParser.Url

/-!
# The request that `relay_send_request` submits

`relay_send_request` takes the url of the request apart with `http_parser_parse_url_`, whose return code
it ignores, copies the parts into arrays of fixed size, and puts the pseudo-headers and the fields of
the request into the array `nvs`.  `header_get_host` does the first of this for `client.c`.

No copy looks at the size of the array that it goes to: a computation stops with the array that is
written outside its bounds, or left without its terminating NUL.
-/

namespace H2ClientProxy

/-- The arrays of `relay_send_request`, and `host` of `client_headers_completecb`. -/
inductive FixedArray where
  | host
  | schma
  | path
  | query
  | flagment
  | authority
  | port
  | nvs
  deriving DecidableEq, Repr

/-- How many elements an array has. -/
def FixedArray.size : FixedArray → ℕ
  | .host => 255
  | .schma => 24
  | .path => 1024 * 4
  | .query => 1024 * 4
  | .flagment => 512
  | .authority => 128
  | .port => 10
  | .nvs => 100

/-- `strcpy` or `strcat`, after which the array `a` holds `text`. -/
def store (a : FixedArray) (text : Bytes) : Except FixedArray Bytes :=
  if text.length < a.size then .ok text else .error a

/-- `append_format(a, sizeof(a), ...)`. -/
def appendTo (a : FixedArray) (buf text : Bytes) : Except FixedArray Bytes :=
  match appendFormat buf a.size text with
  | some buf => .ok buf
  | none => .error a

/-- `strncpy(a, url + off, len)` into a zeroed array; `len` bytes are written. -/
def copyField (a : FixedArray) (url : Bytes) (u : HttpParserUrl) (f : UrlField) :
    Except FixedArray Bytes :=
  if (u.fieldData f).len < a.size then .ok (u.text url f) else .error a

/-- The array `a` gets the text of a field if the field is there. -/
def storeField (a : FixedArray) (url : Bytes) (u : HttpParserUrl) (f : UrlField) :
    Except FixedArray Bytes :=
  if u.fieldSet f then copyField a url u f else .ok []

/-- Whether the method is `connect`. -/
def Header.isConnect (header : Header) : Bool := strcasecmp header.method (bytes "connect")

/-- `header_get_host`; `u0` is what the uninitialised `struct http_parser_url` holds. -/
def headerGetHost (u0 : HttpParserUrl) (header : Header) (url : Bytes) : Except FixedArray Bytes :=
  storeField .host url (httpParserParseUrl u0 url header.isConnect).2 .host

/-- The query or the fragment is copied into the array `a` and from there appended to `path`, behind
its `mark`. -/
def appendPart (a : FixedArray) (f : UrlField) (mark : UInt8) (url : Bytes) (u : HttpParserUrl)
    (path : Bytes) : Except FixedArray Bytes :=
  if u.fieldSet f then do
    let text ← copyField a url u f
    appendTo .path path (mark :: text)
  else pure path

/-- The text of `path`: the path, or `/`, the query and the fragment. -/
def requestPath (url : Bytes) (u : HttpParserUrl) : Except FixedArray Bytes := do
  let path ← storeField .path url u .path
  let path := if path.isEmpty then bytes "/" else path
  let path ← appendPart .query .query (ascii '?') url u path
  appendPart .flagment .fragment (ascii '#') url u path

/-- The text of `port`. -/
def requestPort (url : Bytes) (u : HttpParserUrl) : Except FixedArray Bytes :=
  if u.fieldSet .port then copyField .port url u .port else pure (bytes "80")

/-- `authority` without a host in the url: the `Host` field. -/
def hostFieldAuthority (header : Header) : Except FixedArray Bytes :=
  match headerValue header (bytes "host") with
  | some host => store .authority host
  | none => pure []

/-- The text of `authority`: host and port of the url, or else the `Host` field. -/
def requestAuthority (header : Header) (url : Bytes) (u : HttpParserUrl) :
    Except FixedArray Bytes := do
  let authority ← storeField .authority url u .host
  let port ← requestPort url u
  if authority.isEmpty then hostFieldAuthority header
  else do
    let authority ← store .authority (authority ++ bytes ":")
    store .authority (authority ++ port)

/-- An element of `nvs`. -/
structure Nv where
  name : Bytes
  value : Bytes
  deriving DecidableEq, Repr

/-- `relay_make_nv(nvs + (i++), name, value)`. -/
def relayMakeNv (nvs : List Nv) (name value : Bytes) : Except FixedArray (List Nv) :=
  if nvs.length < FixedArray.nvs.size then .ok (nvs ++ [⟨name, value⟩]) else .error .nvs

/-- The fields that the loop over `list_headers` leaves out. -/
def skipsField (field : Bytes) : Bool :=
  strcasecmp field (bytes "Host") || strcasecmp field (bytes "proxy-connection")
    || strcasecmp field (bytes "connection") || strcasecmp field (bytes "keep-alive")

/-- The loop over `list_headers`. -/
def makeFieldNvs : List Field → List Nv → Except FixedArray (List Nv)
  | [], nvs => pure nvs
  | pos :: rest, nvs =>
    if skipsField pos.field then makeFieldNvs rest nvs
    else do
      let nvs ← relayMakeNv nvs pos.field pos.value
      makeFieldNvs rest nvs

/-- The pseudo-headers. -/
def makePseudoNvs (header : Header) (path schma authority : Bytes) : Except FixedArray (List Nv) :=
  do
  let nvs ← relayMakeNv [] (bytes ":method") header.method
  if header.isConnect then relayMakeNv nvs (bytes ":authority") authority
  else do
    let nvs ← relayMakeNv nvs (bytes ":path") path
    let nvs ← relayMakeNv nvs (bytes ":scheme") schma
    relayMakeNv nvs (bytes ":authority") authority

/-- What `http_parser_parse_url_` leaves in `url`, whose return code is not looked at. -/
def requestUrl (header : Header) (url : Bytes) : HttpParserUrl :=
  (httpParserParseUrl .zero url header.isConnect).2

/-- The name/value list that `relay_send_request` submits. -/
def requestNvs (header : Header) (url : Bytes) : Except FixedArray (List Nv) := do
  let u := requestUrl header url
  let schma ← storeField .schma url u .schema
  let path ← requestPath url u
  let authority ← requestAuthority header url u
  let nvs ← makePseudoNvs header path (if schma.isEmpty then bytes "http" else schma) authority
  makeFieldNvs header.listHeaders nvs

end H2ClientProxy
