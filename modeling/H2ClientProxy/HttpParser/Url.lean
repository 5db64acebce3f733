import H2ClientProxy.Util
import Mathlib.Logic.Function.Basic

/-!
# Urls: `http_parser.c`

`parse_url_char_` is the automaton for urls that the request parser runs over the bytes it reads and
that `http_parser_parse_url_` runs again over the whole text; `http_parse_host_char_` is the automaton
for its server part.  `HTTP_PARSER_STRICT` is 1, so no byte above 127 is a url character.

`http_parser_parse_url_` fills a `struct http_parser_url` as it goes, and leaves what it has filled when
it fails: the result is a pair of the return code and the structure.  Offsets and lengths are
`uint16_t`.
-/

namespace H2ClientProxy

/-! ### Character classes -/

/-- The code of a character. -/
def ascii (c : Char) : UInt8 := c.toNat.toUInt8

/-- `LOWER`. -/
def lower (c : UInt8) : UInt8 := c ||| 0x20

/-- `IS_ALPHA`. -/
def isAlpha (c : UInt8) : Bool := ascii 'a' ≤ lower c && lower c ≤ ascii 'z'

/-- `IS_NUM`. -/
def isNum (c : UInt8) : Bool := ascii '0' ≤ c && c ≤ ascii '9'

/-- `IS_ALPHANUM`. -/
def isAlphanum (c : UInt8) : Bool := isAlpha c || isNum c

/-- `IS_HEX`. -/
def isHex (c : UInt8) : Bool := isNum c || ascii 'a' ≤ lower c && lower c ≤ ascii 'f'

/-- `IS_MARK`. -/
def isMark (c : UInt8) : Bool := c ∈ bytes "-_.!~*'()"

/-- `IS_USERINFO_CHAR`. -/
def isUserinfoChar (c : UInt8) : Bool := isAlphanum c || isMark c || c ∈ bytes "%;:&=+$,"

/-- `IS_HOST_CHAR`. -/
def isHostChar (c : UInt8) : Bool := isAlphanum c || c ∈ bytes ".-_"

/-- `IS_URL_CHAR`, from the table `normal_url_char`: the printable characters without `#` and `?`. -/
def isUrlChar (c : UInt8) : Bool :=
  ascii '!' ≤ c && c ≤ ascii '~' && c != ascii '#' && c != ascii '?'

/-! ### The automaton for urls -/

/-- The states of `enum state` that belong to a url. -/
inductive UrlState where
  | dead
  | spacesBeforeUrl
  | schema
  | schemaSlash
  | schemaSlashSlash
  | serverStart
  | server
  | serverWithAt
  | path
  | queryStringStart
  | queryString
  | fragmentStart
  | fragment
  deriving DecidableEq, Repr

/-- The branch of `s_req_server_start` and `s_req_server`, into which `s_req_server_with_at` falls. -/
def parseServerChar (ch : UInt8) : UrlState :=
  if ch = ascii '/' then .path
  else if ch = ascii '?' then .queryStringStart
  else if ch = ascii '@' then .serverWithAt
  else if isUserinfoChar ch || ch = ascii '[' || ch = ascii ']' then .server
  else .dead

/-- `parse_url_char_`. -/
def parseUrlChar (s : UrlState) (ch : UInt8) : UrlState :=
  if ch = ascii ' ' || ch = ascii '\r' || ch = ascii '\n' then .dead
  else if ch = ascii '\t' || ch = 12 then .dead
  else
    match s with
    | .spacesBeforeUrl =>
      if ch = ascii '/' || ch = ascii '*' then .path else if isAlpha ch then .schema else .dead
    | .schema =>
      if isAlpha ch then .schema else if ch = ascii ':' then .schemaSlash else .dead
    | .schemaSlash => if ch = ascii '/' then .schemaSlashSlash else .dead
    | .schemaSlashSlash => if ch = ascii '/' then .serverStart else .dead
    | .serverWithAt => if ch = ascii '@' then .dead else parseServerChar ch
    | .serverStart => parseServerChar ch
    | .server => parseServerChar ch
    | .path =>
      if isUrlChar ch then .path
      else if ch = ascii '?' then .queryStringStart
      else if ch = ascii '#' then .fragmentStart
      else .dead
    | .queryStringStart | .queryString =>
      if isUrlChar ch then .queryString
      -- an extra `?` is part of the query
      else if ch = ascii '?' then .queryString
      else if ch = ascii '#' then .fragmentStart
      else .dead
    | .fragmentStart =>
      if isUrlChar ch then .fragment
      else if ch = ascii '?' then .fragment
      else if ch = ascii '#' then .fragmentStart
      else .dead
    | .fragment =>
      if isUrlChar ch then .fragment
      else if ch = ascii '?' || ch = ascii '#' then .fragment
      else .dead
    | .dead => .dead

/-! ### `struct http_parser_url` -/

/-- `enum http_parser_url_fields`. -/
inductive UrlField where
  | schema
  | host
  | port
  | path
  | query
  | fragment
  | userinfo
  deriving DecidableEq, Repr

/-- An entry of `field_data`. -/
structure UrlSpan where
  off : ℕ := 0
  len : ℕ := 0
  deriving DecidableEq, Repr

/-- The value that a `uint16_t` takes. -/
def u16 (n : ℕ) : ℕ := n % 2 ^ 16

/-- `struct http_parser_url`. -/
structure HttpParserUrl where
  fieldSet : UrlField → Bool := fun _ => false
  port : ℕ := 0
  fieldData : UrlField → UrlSpan := fun _ => {}

/-- `struct http_parser_url url = {};`. -/
def HttpParserUrl.zero : HttpParserUrl := {}

namespace HttpParserUrl

/-- Field `f` starts at `p` with its first byte, and its bit is set. -/
def start (u : HttpParserUrl) (f : UrlField) (p : ℕ) : HttpParserUrl :=
  { u with
    fieldSet := Function.update u.fieldSet f true
    fieldData := Function.update u.fieldData f ⟨u16 p, 1⟩ }

/-- `u->field_data[f].len++`. -/
def grow (u : HttpParserUrl) (f : UrlField) : HttpParserUrl :=
  { u with
    fieldData := Function.update u.fieldData f
      { u.fieldData f with len := u16 ((u.fieldData f).len + 1) } }

/-- `u->field_data[UF_HOST].off = p - buf`. -/
def moveHost (u : HttpParserUrl) (p : ℕ) : HttpParserUrl :=
  { u with fieldData := Function.update u.fieldData .host { u.fieldData .host with off := u16 p } }

/-- The text of a field. -/
def text (u : HttpParserUrl) (buf : Bytes) (f : UrlField) : Bytes :=
  (buf.drop (u.fieldData f).off).take (u.fieldData f).len

end HttpParserUrl

/-! ### The server part -/

/-- `enum http_host_state`. -/
inductive HostState where
  | dead
  | userinfoStart
  | userinfo
  | hostStart
  | hostV6Start
  | host
  | hostV6
  | hostV6End
  | hostPortStart
  | hostPort
  deriving DecidableEq, Repr

/-- `http_parse_host_char_`. -/
def httpParseHostChar (s : HostState) (ch : UInt8) : HostState :=
  match s with
  | .userinfo | .userinfoStart =>
    if ch = ascii '@' then .hostStart else if isUserinfoChar ch then .userinfo else .dead
  | .hostStart =>
    if ch = ascii '[' then .hostV6Start else if isHostChar ch then .host else .dead
  | .host =>
    if isHostChar ch then .host else if ch = ascii ':' then .hostPortStart else .dead
  | .hostV6End => if ch = ascii ':' then .hostPortStart else .dead
  | .hostV6 =>
    if ch = ascii ']' then .hostV6End
    else if isHex ch || ch = ascii ':' || ch = ascii '.' then .hostV6
    else .dead
  | .hostV6Start => if isHex ch || ch = ascii ':' || ch = ascii '.' then .hostV6 else .dead
  | .hostPort | .hostPortStart => if isNum ch then .hostPort else .dead
  | .dead => .dead

/-- What the loop of `http_parse_host_` records of a byte at `p` that leads from `s` to `newS`. -/
def recordHost (u : HttpParserUrl) (s newS : HostState) (p : ℕ) : HttpParserUrl :=
  match newS with
  | .host => (if s = .host then u else u.moveHost p).grow .host
  | .hostV6 => (if s = .hostV6 then u else u.moveHost p).grow .host
  | .hostPort => if s = .hostPort then u.grow .port else u.start .port p
  | .userinfo => if s = .userinfo then u.grow .userinfo else u.start .userinfo p
  | _ => u

/-- The loop of `http_parse_host_`.  The state is `none` when it returns 1. -/
def hostLoop : Bytes → ℕ → HostState → HttpParserUrl → Option HostState × HttpParserUrl
  | [], _, s, u => (some s, u)
  | ch :: rest, p, s, u =>
    let newS := httpParseHostChar s ch
    if newS = .dead then (none, u) else hostLoop rest (p + 1) newS (recordHost u s newS p)

/-- Where a server part may end. -/
def HostState.final : HostState → Bool
  | .hostStart | .hostV6Start | .hostV6 | .hostPortStart | .userinfo | .userinfoStart => false
  | _ => true

/-- `http_parse_host_`: whether it returns 0, and the structure.  (It reads behind `buf` if the entry of
the host has not been written; this is not modelled.) -/
def httpParseHost (buf : Bytes) (u : HttpParserUrl) (foundAt : Bool) : Bool × HttpParserUrl :=
  let span := u.fieldData .host
  let out := hostLoop ((buf.drop span.off).take span.len) span.off
    (if foundAt then .userinfoStart else .hostStart)
    { u with fieldData := Function.update u.fieldData .host { span with len := 0 } }
  (out.1.any HostState.final, out.2)

/-! ### `http_parser_parse_url_` -/

/-- What the loop keeps: the state, `old_uf` (`none` for `UF_MAX`), `found_at` and the structure. -/
structure UrlScan where
  s : UrlState
  oldUf : Option UrlField := none
  foundAt : Bool := false
  u : HttpParserUrl

/-- The field that a byte belongs to after which the automaton is in this state; `none` for the
delimiters. -/
def UrlState.field : UrlState → Option UrlField
  | .schema => some .schema
  | .serverWithAt => some .host
  | .server => some .host
  | .path => some .path
  | .queryString => some .query
  | .fragment => some .fragment
  | _ => none

/-- One byte, at `p`, that leads to the state `s`. -/
def UrlScan.next (scan : UrlScan) (s : UrlState) (p : ℕ) : UrlScan :=
  match s.field with
  | none => { scan with s := s }
  | some uf =>
    { s := s
      oldUf := some uf
      foundAt := scan.foundAt || s = .serverWithAt
      u := if scan.oldUf = some uf then scan.u.grow uf else scan.u.start uf p }

/-- The loop of `http_parser_parse_url_`; a dead state ends it. -/
def scanUrl : Bytes → ℕ → UrlScan → Except HttpParserUrl UrlScan
  | [], _, scan => .ok scan
  | ch :: rest, p, scan =>
    let s := parseUrlChar scan.s ch
    if s = .dead then .error scan.u else scanUrl rest (p + 1) (scan.next s p)

/-- The value of the digits at the front of a text, onto the value read so far. -/
def digitsValue : Bytes → ℕ → ℕ
  | [], acc => acc
  | c :: cs, acc => if isNum c then digitsValue cs (acc * 10 + (c.toNat - 48)) else acc

/-- `strtoul(s, NULL, 10)` of a text that does not start with white space. -/
def strtoul (s : Bytes) : ℕ :=
  let negative := s.head? = some (ascii '-')
  let v := digitsValue (if negative ∨ s.head? = some (ascii '+') then s.tail else s) 0
  if 2 ^ 64 ≤ v then 2 ^ 64 - 1 else if negative then (2 ^ 64 - v) % 2 ^ 64 else v

/-- A host must be present if there is a schema. -/
def parseHostPart (buf : Bytes) (scan : UrlScan) : Bool × HttpParserUrl :=
  if scan.u.fieldSet .schema || scan.u.fieldSet .host then httpParseHost buf scan.u scan.foundAt
  else (true, scan.u)

/-- `u->field_set == ((1 << UF_HOST)|(1 << UF_PORT))`. -/
def HttpParserUrl.onlyHostPort (u : HttpParserUrl) : Bool :=
  u.fieldSet .host && u.fieldSet .port && !u.fieldSet .schema && !u.fieldSet .path
    && !u.fieldSet .query && !u.fieldSet .fragment && !u.fieldSet .userinfo

/-- The checks behind `http_parse_host_`. -/
def finishUrl (buf : Bytes) (isConnect : Bool) (hosted : Bool × HttpParserUrl) :
    Bool × HttpParserUrl :=
  let u := hosted.2
  if !hosted.1 then (false, u)
  else if isConnect && !u.onlyHostPort then (false, u)
  else if u.fieldSet .port then
    let v := strtoul (buf.drop (u.fieldData .port).off)
    if v > 0xffff then (false, u) else (true, { u with port := u16 v })
  else (true, u)

/-- Before the first byte: `u->port = u->field_set = 0`. -/
def UrlScan.init (u0 : HttpParserUrl) (isConnect : Bool) : UrlScan where
  s := if isConnect then .serverStart else .spacesBeforeUrl
  u := { u0 with port := 0, fieldSet := fun _ => false }

/-- `http_parser_parse_url_(buf, strlen(buf), is_connect, &u0)`: whether it returns 0, and the
structure, whose `field_data` is `u0`'s where nothing is written. -/
def httpParserParseUrl (u0 : HttpParserUrl) (buf : Bytes) (isConnect : Bool) :
    Bool × HttpParserUrl :=
  match scanUrl buf 0 (.init u0 isConnect) with
  | .error u => (false, u)
  | .ok scan => finishUrl buf isConnect (parseHostPart buf scan)

end H2ClientProxy
