import H2ClientProxy.Dns

/-!
# DNS messages on the wire: `dns.c`

The encoder of queries and the decoder of responses.  Memory is a list of bytes and a pointer into it
is an offset; what lies outside cannot be read or written.

* `recv_buf` has 512 bytes and is zeroed, so bytes past the end of a short datagram are read as `0`.
  The decoder notes each offset it reads.
* A name is decoded into a zeroed array of 256 bytes; the string in it ends at its first NUL, but what
  `memcpy` has left behind that NUL stays there.
* `decode_enc_str` calls itself for a compression pointer, and nothing keeps it from doing so for
  ever; so the decoder has a number of steps that it may take.
-/

namespace H2ClientProxy.Dns

/-! ### Strings in arrays -/

/-- `strlen` of the string at the front of an array; the size of the array if it has no NUL. -/
def strlen (buf : Bytes) : ℕ := (cstr buf).length

/-- `memcpy(buf + k, data, n)`, for `n` bytes that fit. -/
def memcpy (buf : Bytes) (k : ℕ) (data : Bytes) : Bytes :=
  buf.take k ++ data ++ buf.drop (k + data.length)

/-- `memcpy(buf + strlen(buf), p, len)` and `strcat(buf, ".")`: `none` when they leave the array. -/
def appendLabel (buf data : Bytes) : Option Bytes :=
  if strlen buf + data.length ≤ buf.length then
    let buf := memcpy buf (strlen buf) data
    if strlen buf + 2 ≤ buf.length then some (memcpy buf (strlen buf) [46, 0]) else none
  else none

/-! ### Queries -/

/-- The end of the label that starts at `p`: the offset of the next dot or NUL.  `left` bytes of the
memory remain. -/
def labelEnd (mem : Bytes) : (left : ℕ) → (p : ℕ) → Option ℕ
  | 0, _ => none
  | left + 1, p => do
    let c ← mem[p]?
    if c ≠ 46 ∧ c ≠ 0 then labelEnd mem left (p + 1) else some p

/-- The loop of `install_domain_name`: every dot is replaced by the length of the label after it. -/
def installLoop : (left : ℕ) → (mem : Bytes) → (p : ℕ) → Option (Bytes × ℕ)
  | 0, _, _ => none
  | left + 1, mem, p => do
    let c ← mem[p]?
    if c = 0 then some (mem, p + 1)
    else if c = 46 then
      let stop ← labelEnd mem left (p + 1)
      installLoop left (mem.set p (stop - p - 1).toUInt8) (p + 1)
    else installLoop left mem (p + 1)

/-- `install_domain_name`: the memory and the pointer that it returns. -/
def installDomainName (mem : Bytes) (p : ℕ) (domainName : Bytes) : Option (Bytes × ℕ) :=
  -- the dot, and `strcpy` behind it
  let text := 46 :: cstr domainName ++ [0]
  if p + text.length ≤ mem.length then installLoop (mem.length - p) (memcpy mem p text) p else none

/-- The datagram that `dns_send_req` sends. -/
def dnsSendReq (host : Bytes) : Option Bytes := do
  let sendBuf := (((List.replicate 512 0).set 1 1).set 2 1).set 5 1
  let (sendBuf, p) ← installDomainName sendBuf 12 host
  if p + 4 ≤ 512 then some (((sendBuf.set (p + 1) 1).set (p + 3) 1).take (p + 4)) else none

/-! ### Responses -/

/-- What goes wrong in the decoder. -/
inductive DecodeFault where
  /-- a byte behind `recv_buf` is read -/
  | outside
  /-- a name is written behind the end of its array -/
  | overflow
  /-- the byte in front of the first `request_record` is written -/
  | underflow
  /-- the steps are used up -/
  | steps
  deriving DecidableEq, Repr

/-- The state is the list of the offsets that have been read. -/
abbrev DecodeM := EStateM DecodeFault (List ℕ)

/-- `recv_buf` after `recvfrom`. -/
def recvBuf (datagram : Bytes) : Bytes := datagram ++ List.replicate (512 - datagram.length) 0

/-- `*p`. -/
def readByte (msg : Bytes) (p : ℕ) : DecodeM UInt8 := do
  match msg[p]? with
  | some c =>
    modify (· ++ [p])
    return c
  | none => throw .outside

/-- The `len` bytes that a `memcpy` from `p` reads. -/
def readBytes (msg : Bytes) : (p len : ℕ) → DecodeM Bytes
  | _, 0 => pure []
  | p, len + 1 => do
    let c ← readByte msg p
    let cs ← readBytes msg (p + 1) len
    return c :: cs

/-- `(*p) * 255 + (*(p + 1))`. -/
def readPair (msg : Bytes) (p : ℕ) : DecodeM ℕ := do
  let hi ← readByte msg p
  let lo ← readByte msg (p + 1)
  return hi.toNat * 255 + lo.toNat

/-- `decode_enc_str`: the pointer it returns and the array it has filled.  The last statement removes
the dot at the end, or, if the string is empty, clears the byte in front of the array.  In a
`response_record`, and in every `request_record` but the `first`, that is the last byte of another
array, where no string reaches; in front of the first `request_record` there is nothing. -/
def decodeEncStr (msg : Bytes) (first : Bool) : (steps p : ℕ) → (buf : Bytes) → DecodeM (ℕ × Bytes)
  | 0, _, _ => throw .steps
  | steps + 1, p, buf => do
    let len ← readByte msg p
    if len = 0 then
      if first && strlen buf = 0 then throw .underflow
      else return (p + 1, buf.set (strlen buf - 1) 0)
    else if len = 0xc0 then
      let lo ← readByte msg (p + 1)
      let offset := (len &&& 0x3f).toNat * 255 + lo.toNat
      let (_, buf) ← decodeEncStr msg first steps offset buf
      return (p + 2, buf)
    else
      let label ← readBytes msg (p + 1) len.toNat
      match appendLabel buf label with
      | none => throw .overflow
      | some buf => decodeEncStr msg first steps (p + 1 + len.toNat) buf

/-- A zeroed `char[256]`. -/
def emptyName : Bytes := List.replicate 256 0

/-- `decode_request_items`. -/
def decodeRequestItems (msg : Bytes) (first : Bool) (steps p : ℕ) : DecodeM (ℕ × Bytes) := do
  let (p, host) ← decodeEncStr msg first steps p emptyName
  return (p + 4, host)

/-- The text of `snprintf("%d.%d.%d.%d", …)`. -/
def addressText (address : Bytes) : Bytes :=
  [46].intercalate (address.map fun c => bytes (toString c.toNat))

/-- The part of `decode_resopnse_item` that reads the data of a record: an address, or a canonical
name. -/
def decodeRdata (msg : Bytes) (steps type p : ℕ) : DecodeM ResponseRecord := do
  if type = 1 then
    let address ← readBytes msg p 4
    return { type := type, ip := addressText address }
  else if type = 5 then
    let (_, cname) ← decodeEncStr msg false steps p emptyName
    return { type := type, cname := cstr cname }
  else return { type := type }

/-- `decode_resopnse_item`. -/
def decodeResopnseItem (msg : Bytes) (steps p : ℕ) : DecodeM (ℕ × ResponseRecord) := do
  let (p, _) ← decodeEncStr msg false steps p emptyName
  let type ← readPair msg p
  let _qclass ← readPair msg (p + 2)
  let _ttl ← readBytes msg (p + 4) 4
  let rdlen ← readPair msg (p + 8)
  let resp ← decodeRdata msg steps type (p + 10)
  return (p + 10 + rdlen, resp)

/-- The loop over the questions. -/
def decodeRequests (msg : Bytes) (steps : ℕ) :
    (count : ℕ) → (first : Bool) → (p : ℕ) → DecodeM (ℕ × List Bytes)
  | 0, _, p => pure (p, [])
  | count + 1, first, p => do
    let (p, host) ← decodeRequestItems msg first steps p
    let (p, hosts) ← decodeRequests msg steps count false p
    return (p, host :: hosts)

/-- The loop over the answers. -/
def decodeAnswers (msg : Bytes) (steps : ℕ) :
    (count : ℕ) → (p : ℕ) → DecodeM (List ResponseRecord)
  | 0, _ => pure []
  | count + 1, p => do
    let (p, resp) ← decodeResopnseItem msg steps p
    let resps ← decodeAnswers msg steps count p
    return resp :: resps

/-- What `decode_response` has read: `reqs`, `resps` and `rcode`. -/
structure Decoded where
  hosts : List Bytes
  resps : List ResponseRecord
  rcode : ℕ
  deriving DecidableEq, Repr

/-- The reading part of `decode_response`. -/
def decodeResponse (msg : Bytes) (steps : ℕ) : DecodeM Decoded := do
  let _id ← readPair msg 0
  let _qr ← readByte msg 2
  let flags ← readByte msg 3
  let dcount ← readPair msg 4
  let answerCount ← readPair msg 6
  let (p, hosts) ← decodeRequests msg steps dcount true 12
  let resps ← decodeAnswers msg steps answerCount p
  return { hosts := hosts, resps := resps, rcode := (flags &&& 0xf).toNat }

-- a concrete message is decoded by the kernel, and nowhere else
attribute [irreducible] decodeResponse

/-- What goes wrong when a datagram is received. -/
inductive RecvFault where
  | decode (e : DecodeFault)
  | dns (e : DnsFault)
  deriving DecidableEq, Repr

/-- `dns_recv_cb`, up to the first callback.  The query that is looked for is the one for the first
question. -/
def dnsRecvCb (datagram : Bytes) (steps : ℕ) : EStateM RecvFault Resolver Unit := fun d =>
  match decodeResponse (recvBuf datagram) steps [] with
  | .error e _ => .error (.decode e) d
  | .ok m _ =>
    match m.hosts with
    | [] => .ok () d
    | host :: _ =>
      match dnsStep (.response host m.resps m.rcode) d with
      | .ok () d' => .ok () d'
      | .error e d' => .error (.dns e) d'

end H2ClientProxy.Dns
