import H2ClientProxy.Ep.Base
import H2ClientProxy.Header
import Mathlib.Algebra.BigOperators.Group.List.Defs

/-!
# The resolver: `dns.c`

A request (`dns_req`) for a host waits in the list of the one query (`dns_real_req`) for this host, or,
if the host is an address or is in the cache, for a timer of its own that fires at once.  A response or
the fifth timeout answers all requests of a query and frees it.

* The answers run user code in the middle of a loop, and this code may resolve and cancel.  So the loop
  is a machine: `answerAt` runs it up to the next callback, `control` keeps its local variables while
  the callback runs, and `callbackRet` goes on when it returns.
* The clock stands still and the order of `list_timers` is not looked at: any timer that is linked may
  fire at any time.
* `dns_send_req` is noted in the trace; a response is given by what `decode_response` has read from it.
-/

namespace H2ClientProxy.Dns

open Ep

abbrev ReqId := ℕ
abbrev RealId := ℕ

/-! ### Addresses -/

/-- The value of a digit in the bases that `strtoul` knows. -/
def digitVal (c : UInt8) : ℕ :=
  if 48 ≤ c ∧ c ≤ 57 then c.toNat - 48
  else if 65 ≤ c ∧ c ≤ 70 then c.toNat - 55
  else if 97 ≤ c ∧ c ≤ 102 then c.toNat - 87
  else 16

/-- The digits of `strtoul`, from the left, onto the value read so far. -/
def strtoulDigits (base : ℕ) : Bytes → ℕ → ℕ × Bytes
  | [], acc => (acc, [])
  | c :: cs, acc =>
    if digitVal c < base then strtoulDigits base cs (acc * base + digitVal c) else (acc, c :: cs)

/-- `strtoul(s, &end, 0)` of a text that starts with a decimal digit: a `0x` that a digit follows means
hexadecimal, any other `0` octal. -/
def strtoul (s : Bytes) : ℕ × Bytes :=
  match s with
  | 48 :: x :: c :: cs =>
    if (x = 120 ∨ x = 88) ∧ digitVal c < 16 then strtoulDigits 16 (c :: cs) 0
    else strtoulDigits 8 s 0
  | 48 :: _ => strtoulDigits 8 s 0
  | _ => strtoulDigits 10 s 0

/-- `isspace` in the C locale. -/
def isspace (c : UInt8) : Bool := c = 32 ∨ (9 ≤ c ∧ c ≤ 13)

/-- The parts of `inet_aton` from the one with the index `parts` on, onto the value `acc` of those
before it.  The last part fills all the bytes that are left, and may be followed by a space and
anything. -/
def inetAtonParts : ℕ → ℕ → ℕ → Bytes → Option ℕ
  | 0, _, _, _ => none
  | fuel + 1, parts, acc, s =>
    match s with
    | [] => none
    | c :: _ =>
      if 48 ≤ c ∧ c ≤ 57 then
        match strtoul s with
        | (val, 46 :: rest) =>
          if val ≤ 255 ∧ parts < 3 then inetAtonParts fuel (parts + 1) (acc * 256 + val) rest
          else none
        | (val, rest) =>
          if val < 256 ^ (4 - parts) ∧ rest.head?.all isspace then
            some (acc * 256 ^ (4 - parts) + val)
          else none
      else none

/-- `inet_aton`. -/
def inetAton (host : Bytes) : Option ℕ := inetAtonParts 4 0 0 host

/-- The text of `inet_ntoa`. -/
def inetNtoa (addr : ℕ) : Bytes :=
  bytes (".".intercalate
    ([addr / 2 ^ 24, addr / 2 ^ 16, addr / 2 ^ 8, addr].map fun n => toString (n % 256)))

/-! ### The state -/

/-- `struct cache_record`. -/
structure CacheRecord where
  host : Bytes
  ip : Bytes
  cname : Bytes
  deriving DecidableEq, Repr

/-- What `right_result` points to: the static buffer of `inet_ntoa`, or the address in a cache
record. -/
inductive RightResult where
  | ntoa
  | record (ip : Bytes)
  deriving DecidableEq, Repr

/-- `struct dns_req`; `cb` and `args` belong to the user, and `is_ip` is not used. -/
structure DnsReq where
  /-- The list the node `list` is linked in; `none` while the node is all zero. -/
  list : Option RealId := none
  realReq : Option RealId := none
  tmrRightCallback : Option TimerId := none
  rightResult : Option RightResult := none
  deriving DecidableEq, Repr

/-- `struct dns_real_req`; `pending` is not used. -/
structure RealReq where
  host : Bytes
  listReqs : List ReqId := []
  timer : Option TimerId := none
  countTimeout : ℕ := 0
  deriving DecidableEq, Repr

/-- `cb` and `args` of the timers that `dns.c` creates. -/
inductive TimerArgs where
  /-- `dns_real_req_timercb` -/
  | realReq (real : RealId)
  /-- `dns_rightnow_tmrcb` -/
  | rightnow (req : ReqId)
  deriving DecidableEq, Repr

/-- `struct response_record`, as far as it is read. -/
structure ResponseRecord where
  type : ℤ
  ip : Bytes := []
  cname : Bytes := []
  deriving DecidableEq, Repr

/-- What a callback is given. -/
structure Answer where
  retCode : ℤ
  ips : List Bytes
  cname : Bytes
  deriving DecidableEq, Repr

/-- Where the resolver is between two steps. -/
inductive Control where
  | idle
  /-- In the callback of `pos`, inside the loop of `dns_real_req_active_and_free`; `n` is the entry the
  loop will go on with, `none` the head of the list. -/
  | answering (real : RealId) (pos : ReqId) (n : Option ReqId) (answer : Answer)
  /-- In the callback of `req`, inside `dns_rightnow_tmrcb`. -/
  | rightnow (req : ReqId)
  deriving DecidableEq, Repr

/-- What can be seen from outside. -/
inductive DnsObs where
  /-- A query is sent. -/
  | sendReq (host : Bytes)
  /-- A request joins the waiters of a query. -/
  | waits (req : ReqId) (real : RealId)
  /-- The callback of a request is called. -/
  | called (req : ReqId) (answer : Answer)
  /-- `dns_cancel` has returned. -/
  | cancelled (req : ReqId)
  deriving DecidableEq, Repr

/-- The variables of `dns.c` and its objects. -/
structure Resolver where
  ep : EpBase := {}
  timerArgs : TimerId → Option TimerArgs := fun _ => none
  reqs : ReqId → Option DnsReq := fun _ => none
  nextReq : ReqId := 0
  realReqs : RealId → Option RealReq := fun _ => none
  nextReal : RealId := 0
  sHash : ℕ → List RealId := fun _ => []
  sCacheHash : ℕ → List CacheRecord := fun _ => []
  /-- The static buffer of `inet_ntoa`. -/
  ntoaBuf : Bytes := []
  control : Control := .idle
  trace : List DnsObs := []

/-- What goes wrong. -/
inductive DnsFault where
  | ep (e : EpFault)
  /-- a freed object is used -/
  | reqFreed (req : ReqId)
  | realFreed (real : RealId)
  /-- `list_del` of a node that was never linked follows a `NULL` pointer -/
  | nullNode (req : ReqId)
  /-- `list_del` of a node in the list of a freed query writes to freed memory -/
  | danglingNode (req : ReqId)
  /-- `dns_cache_add` copies from a `NULL` address -/
  | nullIp
  /-- a copied host name has no terminating NUL -/
  | unterminated
  | assertFailed
  deriving DecidableEq, Repr

abbrev DnsM := EStateM DnsFault Resolver

namespace Resolver

@[simps -fullyApplied]
def setEp (d : Resolver) (b : EpBase) : Resolver := { d with ep := b }

@[simps -fullyApplied]
def setTimerArgs (d : Resolver) (t : TimerId) (args : TimerArgs) : Resolver :=
  { d with timerArgs := Function.update d.timerArgs t (some args) }

/-- A new request. -/
@[simps -fullyApplied]
def addReq (d : Resolver) (req : DnsReq) : Resolver :=
  { d with reqs := Function.update d.reqs d.nextReq (some req), nextReq := d.nextReq + 1 }

/-- Free a request. -/
@[simps -fullyApplied]
def freeReq (d : Resolver) (r : ReqId) : Resolver := { d with reqs := Function.update d.reqs r none }

/-- Replace the contents of a query. -/
@[simps -fullyApplied]
def setReal (d : Resolver) (R : RealId) (real : RealReq) : Resolver :=
  { d with realReqs := Function.update d.realReqs R (some real) }

/-- A new query, at the end of the bucket `k`. -/
@[simps -fullyApplied]
def addReal (d : Resolver) (real : RealReq) (k : ℕ) : Resolver :=
  { d with realReqs := Function.update d.realReqs d.nextReal (some real)
           nextReal := d.nextReal + 1
           sHash := Function.update d.sHash k (d.sHash k ++ [d.nextReal]) }

/-- Unlink a query from the bucket `k` and free it. -/
@[simps -fullyApplied]
def removeReal (d : Resolver) (R : RealId) (k : ℕ) : Resolver :=
  { d with realReqs := Function.update d.realReqs R none
           sHash := Function.update d.sHash k ((d.sHash k).erase R) }

/-- A new cache record, at the end of the bucket `k`. -/
@[simps -fullyApplied]
def addRecord (d : Resolver) (record : CacheRecord) (k : ℕ) : Resolver :=
  { d with sCacheHash := Function.update d.sCacheHash k (d.sCacheHash k ++ [record]) }

@[simps -fullyApplied]
def setNtoaBuf (d : Resolver) (text : Bytes) : Resolver := { d with ntoaBuf := text }

@[simps -fullyApplied]
def setControl (d : Resolver) (control : Control) : Resolver := { d with control := control }

@[simps -fullyApplied]
def log (d : Resolver) (o : DnsObs) : Resolver := { d with trace := d.trace ++ [o] }

end Resolver

def getReq (r : ReqId) : DnsM DnsReq := do
  match (← get).reqs r with
  | some req => return req
  | none => throw (.reqFreed r)

def getReal (R : RealId) : DnsM RealReq := do
  match (← get).realReqs R with
  | some real => return real
  | none => throw (.realFreed R)

/-- A call of a function of `ep.c`. -/
def liftEp {α : Type} (x : EpM α) : DnsM α := fun d =>
  match x d.ep with
  | .ok a b => .ok a (d.setEp b)
  | .error e b => .error (.ep e) (d.setEp b)

/-! ### The tables -/

/-- A `char` of a string as an integer; it is signed. -/
def signedChar (c : UInt8) : ℤ := if c < 128 then c.toNat else c.toNat - 256

/-- The sum that both hash functions start from.  It is taken modulo `2^64`, which both numbers of
buckets divide. -/
def hashTotal (s : Bytes) : ℤ := (s.map signedChar).sum

/-- `dns_hash_str`. -/
def dnsHashStr (s : Bytes) : ℕ := (hashTotal s % 512).toNat

/-- `dns_hash_cache_str`. -/
def dnsHashCacheStr (s : Bytes) : ℕ := (hashTotal s % 4096).toNat

/-- `dns_cache_find`. -/
def dnsCacheFind (d : Resolver) (host : Bytes) : Option CacheRecord :=
  (d.sCacheHash (dnsHashCacheStr host)).find? fun record => record.host = host

/-- `dns_cache_add`.  The host comes from a query, so it is shorter than the array it is copied to; the
number of bytes copied of the canonical name is the size of the other array. -/
def dnsCacheAdd (host : Bytes) (ip : Option Bytes) (cname : Bytes) : DnsM Unit := do
  if (dnsCacheFind (← get) host).isSome then pure ()
  else
    match ip with
    | none => throw .nullIp
    | some ip =>
      let record : CacheRecord := { host := host, ip := strncpy ip 64, cname := strncpy cname 64 }
      modify (·.addRecord record (dnsHashCacheStr host))

/-- `dns_real_req_find`. -/
def dnsRealReqFind (d : Resolver) (host : Bytes) : Option RealId :=
  (d.sHash (dnsHashStr host)).find? fun R => (d.realReqs R).any (·.host = host)

/-! ### Queries -/

/-- `dns_real_req_start`. -/
def dnsRealReqStart (R : RealId) : DnsM Unit := do
  let real ← getReal R
  let t ← match real.timer with
    | some t => pure t
    | none => do
      let t ← liftEp epTimerNew
      modify (·.setTimerArgs t (.realReq R))
      modify (·.setReal R { real with timer := some t })
      pure t
  if ← liftEp (epTimerPending t) then pure ()
  else
    liftEp (epTimerAdd t (1000 * (real.countTimeout + 1)))
    modify (·.log (.sendReq real.host))

/-- `ep_timer_del` if the timer is pending, and `ep_timer_free`. -/
def stopTimer (t : TimerId) : DnsM Unit := do
  if ← liftEp (epTimerPending t) then liftEp (epTimerDel t) else pure ()
  liftEp (epTimerFree t)

/-- `dns_real_req_del`. -/
def dnsRealReqDel (R : RealId) : DnsM Unit := do
  let real ← getReal R
  if !real.listReqs.isEmpty then throw .assertFailed
  else
    match real.timer with
    | some t => stopTimer t
    | none => pure ()
    modify (·.removeReal R (dnsHashStr real.host))

/-- `list_del(&req->list)`. -/
def listDel (r : ReqId) : DnsM Unit := do
  let req ← getReq r
  match req.list with
  | none => throw (.nullNode r)
  | some R =>
    match (← get).realReqs R with
    | none => throw (.danglingNode r)
    | some real => modify (·.setReal R { real with listReqs := real.listReqs.erase r })

/-! ### Answers -/

/-- The arguments of the callbacks: the addresses of the records of type 1, the name of the last record
of type 5, and an error for a response without records. -/
def answerOf (resps : List ResponseRecord) (retCode : ℤ) : Answer where
  retCode := if resps.isEmpty ∧ retCode = 0 then -1 else retCode
  ips := resps.filterMap fun resp => if resp.type = 1 then some resp.ip else none
  cname := ((resps.filter (·.type = 5)).getLast?.map ResponseRecord.cname).getD []

/-- The end of `dns_real_req_active_and_free`. -/
def finishAnswer (R : RealId) (answer : Answer) : DnsM Unit := do
  let real ← getReal R
  if answer.retCode = 0 then dnsCacheAdd real.host answer.ips.head? answer.cname else pure ()
  match real.timer with
  | none => pure ()
  | some t =>
    -- a timer that is not pending is not freed
    if ← liftEp (epTimerPending t) then stopTimer t else pure ()
  modify (·.removeReal R (dnsHashStr real.host))
  modify (·.setControl .idle)

/-- One round of the loop of `dns_real_req_active_and_free` with `pos` at a request or at the head: it
ends the loop, or calls back. -/
def answerAt (R : RealId) (pos : Option ReqId) (answer : Answer) : DnsM Unit := do
  match pos with
  | none => finishAnswer R answer
  | some r =>
    let _ ← getReq r
    let real ← getReal R
    modify (·.log (.called r answer))
    modify (·.setControl (.answering R r (nextOf real.listReqs r) answer))

/-- `dns_real_req_active_and_free`, up to the first callback. -/
def dnsRealReqActiveAndFree (R : RealId) (resps : List ResponseRecord) (retCode : ℤ) :
    DnsM Unit := do
  let real ← getReal R
  answerAt R real.listReqs.head? (answerOf resps retCode)

/-- `dns_real_req_timercb`. -/
def dnsRealReqTimercb (R : RealId) : DnsM Unit := do
  let real ← getReal R
  modify (·.setReal R { real with countTimeout := real.countTimeout + 1 })
  if real.countTimeout + 1 ≥ 5 then dnsRealReqActiveAndFree R [] (-1) else dnsRealReqStart R

/-- `dns_rightnow_tmrcb`, up to the callback. -/
def dnsRightnowTmrcb (r : ReqId) : DnsM Unit := do
  let req ← getReq r
  if req.realReq.isSome then throw .assertFailed
  else
    let d ← get
    let ip := match req.rightResult with
      | some (.record ip) => ip
      | _ => d.ntoaBuf
    modify (·.log (.called r { retCode := 0, ips := [ip], cname := bytes "fake.cname" }))
    modify (·.setControl (.rightnow r))

/-- The user's callback returns. -/
def callbackRet : DnsM Unit := do
  match (← get).control with
  | .idle => pure ()
  | .answering R pos n answer =>
    listDel pos
    modify (·.freeReq pos)
    answerAt R n answer
  | .rightnow r =>
    let req ← getReq r
    match req.tmrRightCallback with
    | some t => liftEp (epTimerFree t)
    | none => pure ()
    modify (·.freeReq r)
    modify (·.setControl .idle)

/-! ### The interface -/

/-- A request that is answered by a timer at once. -/
def resolveRightnow (result : RightResult) : DnsM Unit := do
  let t ← liftEp epTimerNew
  let d ← get
  modify (·.setTimerArgs t (.rightnow d.nextReq))
  liftEp (epTimerAdd t 0)
  modify (·.addReq { tmrRightCallback := some t, rightResult := some result })

/-- A new query for a host.  A copy of a host of 256 bytes or more has no NUL, and `dns_hash_str` reads
past its end. -/
def newRealReq (host : Bytes) : DnsM RealId := do
  if host.length ≥ 256 then throw .unterminated
  else
    let d ← get
    modify (·.addReal { host := host } (dnsHashStr host))
    dnsRealReqStart d.nextReal
    return d.nextReal

/-- `dns_resolve` for a host that is not an address and not in the cache. -/
def resolveQuery (host : Bytes) : DnsM Unit := do
  let R ← match dnsRealReqFind (← get) host with
    | some R => pure R
    | none => newRealReq host
  let real ← getReal R
  let d ← get
  modify (·.addReq { list := some R })
  modify (·.setReal R { real with listReqs := real.listReqs ++ [d.nextReq] })
  modify (·.log (.waits d.nextReq R))

/-- `dns_resolve`. -/
def dnsResolve (host : Bytes) : DnsM Unit := do
  match inetAton host with
  | some addr =>
    modify (·.setNtoaBuf (inetNtoa addr))
    resolveRightnow .ntoa
  | none =>
    match dnsCacheFind (← get) host with
    | some record => resolveRightnow (.record record.ip)
    | none => resolveQuery host

/-- `dns_cancel`. -/
def dnsCancel (r : ReqId) : DnsM Unit := do
  let req ← getReq r
  listDel r
  match req.realReq with
  | some R =>
    if (← getReal R).listReqs.isEmpty then dnsRealReqDel R else pure ()
  | none =>
    match req.tmrRightCallback with
    | some t => stopTimer t
    | none => pure ()
  modify (·.freeReq r)
  modify (·.log (.cancelled r))

/-! ### Steps -/

/-- What happens to the resolver. -/
inductive DnsEvent where
  /-- `dns_resolve`, by user code inside or outside of a callback. -/
  | resolve (host : Bytes)
  /-- `dns_cancel` of a request that has not been freed. -/
  | cancel (r : ReqId)
  /-- The callback that is running returns. -/
  | ret
  /-- A timer fires. -/
  | timer (t : TimerId)
  /-- A response is received: its first question, its answer records and its code. -/
  | response (host : Bytes) (resps : List ResponseRecord) (rcode : ℕ)
  deriving DecidableEq, Repr

/-- The node of a timer, if it is linked. -/
def linkedNode (b : EpBase) (t : TimerId) : Option InfoId :=
  (b.timers t).bind fun tm => tm.info.filter fun i => (b.infos i).any TimerInfo.pending

/-- The body of the loop of `ep_timer_check` for a timer of the resolver. -/
def fireTimer (t : TimerId) : DnsM Unit := do
  let d ← get
  match linkedNode d.ep t, d.timerArgs t with
  | some i, some args =>
    liftEp (epTimerInfoDel i)
    match args with
    | .realReq R => dnsRealReqTimercb R
    | .rightnow r => dnsRightnowTmrcb r
  | _, _ => pure ()

/-- One step.  While a callback runs, only the callback does anything. -/
def dnsStep : DnsEvent → DnsM Unit
  | .resolve host => dnsResolve (cstr host)
  | .cancel r => do
    if ((← get).reqs r).isSome then dnsCancel r else pure ()
  | .ret => callbackRet
  | .timer t => do
    if (← get).control = .idle then fireTimer t else pure ()
  | .response host resps rcode => do
    let d ← get
    if d.control = .idle then
      match dnsRealReqFind d (cstr host) with
      | some R => dnsRealReqActiveAndFree R resps rcode
      | none => pure ()
    else pure ()

/-- The resolver after `dns_init`. -/
def Resolver.init : Resolver := {}

end H2ClientProxy.Dns
