import H2ClientProxy.HttpParser.Execute
import H2ClientProxy.Lib.Chunked
import Mathlib.Data.List.DropRight

/-!
# Requests and their texts

What the parser of requests is for, stated without it: what a request is, how it is written, and which
calls tell somebody of it.

* `Framing.add`: what a header field says about the body and about the connection, from its whole name
  and its whole value.
* `Message`: a request with its body, and `Message.text`, its text.
* `Message.calls`: the calls that a parser has to make for it.
* `Message.WellFormed`: the conditions on its parts.
-/

namespace H2ClientProxy

namespace Bytes

/-- A condition on the bytes of a text is checked on these bytes, and not on all there are. -/
scoped instance (priority := high) decidableForallMem (p : UInt8 → Prop) [DecidablePred p] (l : List UInt8) :
    Decidable (∀ c ∈ l, p c) :=
  List.decidableBAll p l

scoped instance (priority := high) decidableForallHead (p : UInt8 → Prop) [DecidablePred p]
    (o : Option UInt8) : Decidable (∀ c ∈ o, p c) :=
  Option.decidableForallMem o

end Bytes

open scoped Bytes

/-! ### Header fields -/

/-- The field has this name, in any letter case. -/
def Field.is (f : Field) (name : Bytes) : Bool := strcasecmp f.field name

/-- The value of the field is this word, in any letter case; blanks behind it do not count. -/
def Field.reads (f : Field) (word : Bytes) : Bool :=
  strcasecmp (f.value.rdropWhile (· = ascii ' ')) word

/-- What the fields of a header say about the body and about the connection. -/
structure Framing where
  flags : ParserFlags := {}
  /-- `ULLONG_MAX` when there is no `Content-Length` -/
  contentLength : ℕ := ullongMax
  deriving DecidableEq, Repr

/-- One more field.  A field without a value says nothing. -/
def Framing.add (fr : Framing) (f : Field) : Framing :=
  if f.value = [] then fr
  else if f.is (bytes "connection") || f.is (bytes "proxy-connection") then
    if f.reads (bytes "keep-alive") then
      { fr with flags := { fr.flags with connectionKeepAlive := true } }
    else if f.reads (bytes "close") then { fr with flags := { fr.flags with connectionClose := true } }
    else fr
  else if f.is (bytes "content-length") then { fr with contentLength := digitsValue f.value 0 }
  else if f.is (bytes "transfer-encoding") then
    if f.reads (bytes "chunked") then { fr with flags := { fr.flags with chunked := true } } else fr
  else if f.is (bytes "upgrade") then { fr with flags := { fr.flags with upgrade := true } }
  else fr

/-- The text of a field. -/
def Field.text (f : Field) : Bytes := f.field ++ bytes ": " ++ f.value ++ crlf

/-- A field that is written as it is: the name consists of token characters, the value is one line that
does not start with a blank, and a length is a number that can be counted up to. -/
structure Field.WellFormed (f : Field) : Prop where
  name_ne : f.field ≠ []
  name : ∀ c ∈ f.field, token c ≠ 0
  value : ∀ c ∈ f.value, c ≠ cr ∧ c ≠ lf
  value_head : ∀ c ∈ f.value.head?, c ≠ ascii ' ' ∧ c ≠ ascii '\t'
  length : f.is (bytes "content-length") = true →
    (∀ c ∈ f.value, isNum c = true) ∧ digitsValue f.value 0 < ullongMax

instance decidableFieldWellFormed (f : Field) : Decidable f.WellFormed :=
  decidable_of_iff (f.field ≠ [] ∧ (∀ c ∈ f.field, token c ≠ 0) ∧ (∀ c ∈ f.value, c ≠ cr ∧ c ≠ lf) ∧
      (∀ c ∈ f.value.head?, c ≠ ascii ' ' ∧ c ≠ ascii '\t') ∧
      (f.is (bytes "content-length") = true →
        (∀ c ∈ f.value, isNum c = true) ∧ digitsValue f.value 0 < ullongMax))
    ⟨fun h => ⟨h.1, h.2.1, h.2.2.1, h.2.2.2.1, h.2.2.2.2⟩,
      fun h => ⟨h.name_ne, h.name, h.value, h.value_head, h.length⟩⟩

/-! ### Bodies -/

/-- A chunk of a body, with the text of its size. -/
structure Chunk where
  size : Bytes
  data : Bytes
  deriving DecidableEq, Repr

/-- The text of a chunk. -/
def Chunk.text (c : Chunk) : Bytes := c.size ++ crlf ++ c.data ++ crlf

/-- The text of a size: at least one hexadecimal digit, on a line that is not too long for the parser. -/
structure IsSize (size : Bytes) (n : ℕ) : Prop where
  ne : size ≠ []
  value : Chunked.readDigits 0 size = (n, [])
  lt : n < ullongMax
  line : size.length + 2 ≤ httpMaxHeaderSize

instance decidableIsSize (size : Bytes) (n : ℕ) : Decidable (IsSize size n) :=
  decidable_of_iff (size ≠ [] ∧ Chunked.readDigits 0 size = (n, []) ∧ n < ullongMax ∧
      size.length + 2 ≤ httpMaxHeaderSize)
    ⟨fun ⟨h1, h2, h3, h4⟩ => ⟨h1, h2, h3, h4⟩, fun h => ⟨h.ne, h.value, h.lt, h.line⟩⟩

/-- A body and how it is framed. -/
inductive Body where
  | none
  /-- with a `Content-Length` -/
  | length (data : Bytes)
  /-- in chunks, with the text of the size of the last one -/
  | chunked (chunks : List Chunk) (last : Bytes)
  /-- everything that follows -/
  | tunnel (data : Bytes)
  deriving DecidableEq, Repr

def Body.text : Body → Bytes
  | .none => []
  | .length data => data
  | .chunked chunks last => chunks.flatMap Chunk.text ++ (last ++ crlf ++ crlf)
  | .tunnel data => data

/-- The bytes of the body. -/
def Body.data : Body → Bytes
  | .none => []
  | .length data => data
  | .chunked chunks _ => chunks.flatMap Chunk.data
  | .tunnel data => data

/-- The body is framed as the method and the header say. -/
def Body.Fits (method : HttpMethod) (fr : Framing) : Body → Prop
  | .none => (fr.flags.upgrade || method = .connect) = false ∧ fr.flags.chunked = false ∧
      (fr.contentLength = 0 ∨ fr.contentLength = ullongMax)
  | .length data => (fr.flags.upgrade || method = .connect) = false ∧ fr.flags.chunked = false ∧
      data ≠ [] ∧ fr.contentLength = data.length ∧ data.length < ullongMax
  | .chunked chunks last => (fr.flags.upgrade || method = .connect) = false ∧
      fr.flags.chunked = true ∧ (∀ c ∈ chunks, c.data ≠ [] ∧ IsSize c.size c.data.length) ∧
      IsSize last 0
  | .tunnel _ => (fr.flags.upgrade || method = .connect) = true

instance decidableFits (method : HttpMethod) (fr : Framing) :
    ∀ body : Body, Decidable (body.Fits method fr)
  | .none => by show Decidable (_ ∧ _); infer_instance
  | .length _ => by show Decidable (_ ∧ _); infer_instance
  | .chunked _ _ => by show Decidable (_ ∧ _); infer_instance
  | .tunnel _ => by show Decidable (_ = _); infer_instance

/-! ### Requests -/

/-- A request of HTTP/1. -/
structure Message where
  method : HttpMethod
  url : Bytes
  /-- the `x` of `HTTP/1.x` -/
  minor : ℕ
  fields : List Field
  body : Body
  deriving DecidableEq, Repr

namespace Message

/-- What the header says. -/
def framing (m : Message) : Framing := m.fields.foldl Framing.add {}

/-- The request line. -/
def line (m : Message) : Bytes :=
  m.method.str ++ bytes " " ++ m.url ++ bytes " "
    ++ (bytes "HTTP/1." ++ [ascii '0' + m.minor.toUInt8] ++ crlf)

/-- The text up to the body. -/
def head (m : Message) : Bytes := m.line ++ m.fields.flatMap Field.text ++ crlf

def text (m : Message) : Bytes := m.head ++ m.body.text

/-- The calls for a field. -/
def fieldCalls (f : Field) : List Callback := [.headerField f.field, .headerValue f.value]

/-- The calls for a body; a tunnel has no end. -/
def bodyCalls : Body → List Callback
  | .none => [.messageComplete]
  | .length data => [.body data, .messageComplete]
  | .chunked chunks _ => chunks.map (fun c => Callback.body c.data) ++ [Callback.messageComplete]
  | .tunnel data => if data = [] then [] else [.body data]

/-- The calls that deliver the request. -/
def calls (m : Message) : List Callback :=
  [Callback.messageBegin, .url m.url] ++ m.fields.flatMap fieldCalls ++ [Callback.headersComplete m.method]
    ++ bodyCalls m.body

/-- The state of `parse_url_char_` behind the url. -/
def urlState (m : Message) : UrlState :=
  m.url.foldl parseUrlChar (if m.method = .connect then .serverStart else .spacesBeforeUrl)

/-- The request is written as `text` has it. -/
structure WellFormed (m : Message) : Prop where
  url_ne : m.url ≠ []
  url : m.urlState ∉ [UrlState.dead, .schema, .schemaSlash, .schemaSlashSlash, .serverStart]
  minor : m.minor < 10
  fields : ∀ f ∈ m.fields, f.WellFormed
  body : m.body.Fits m.method m.framing
  /-- The end of a chunked request before this one counts as well. -/
  length : m.head.length + 2 ≤ httpMaxHeaderSize

instance decidableWellFormed (m : Message) : Decidable m.WellFormed :=
  decidable_of_iff (m.url ≠ [] ∧
      m.urlState ∉ [UrlState.dead, .schema, .schemaSlash, .schemaSlashSlash, .serverStart] ∧
      m.minor < 10 ∧ (∀ f ∈ m.fields, f.WellFormed) ∧ m.body.Fits m.method m.framing ∧
      m.head.length + 2 ≤ httpMaxHeaderSize)
    ⟨fun ⟨h1, h2, h3, h4, h5, h6⟩ => ⟨h1, h2, h3, h4, h5, h6⟩,
      fun h => ⟨h.url_ne, h.url, h.minor, h.fields, h.body, h.length⟩⟩

/-- The connection stays open for another request. -/
def keepsAlive (m : Message) : Bool :=
  match m.body with
  | .tunnel _ => false
  | _ =>
    if m.minor > 0 then !m.framing.flags.connectionClose else m.framing.flags.connectionKeepAlive

/-- Requests that follow each other on a connection: all but the last one leave it open. -/
structure Pipelined (msgs : List Message) : Prop where
  ne : msgs ≠ []
  wellFormed : ∀ m ∈ msgs, m.WellFormed
  keepsAlive : ∀ m ∈ msgs.dropLast, m.keepsAlive = true

end Message

end H2ClientProxy
