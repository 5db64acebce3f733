import H2ClientProxy.Client
import H2ClientProxy.Ep.Base

/-!
# Buffered connections: `ep_buf_tcp.c`

An `ep_buf` sends what it is given at once as far as the socket accepts it, keeps the rest in
`list_write_buf`, and tells its user by a callback that it can read or write or has failed.

* `send()` and `write()` answer with a `SendResult` of the environment.
* The callback is user code that may call any function of the `ep_buf`.  So `ep_buf_file_eventcb` is a
  machine: an event is handled in stages (`BufStage`), `BufInput.next` runs the next one, a stage may end
  in a callback, and `BufInput.ret` returns from it.  Calls of the user come between two events or
  while a callback runs (`EpBufImpl.userRuns`).
* What `read()` delivers is left out: no function of the file looks at it.
-/

namespace H2ClientProxy

open SendQueue Ep Wrap32

/-! ### The state -/

/-- The events of `ep_buf.h`. -/
def EP_BUF_READ : Mask := 1
def EP_BUF_WRITE : Mask := 2
def EP_BUF_ERROR : Mask := 4

/-- What is left to do of `ep_buf_file_eventcb`: all of it, the `EP_BUF_WRITE` callback at the end of
`ep_buf_file_writecb`, `ep_buf_file_readcb`, the `EP_ERROR` branch, or nothing. -/
inductive BufStage where
  | write
  | writeCallback
  | read
  | error
  | done
  deriving DecidableEq, Repr

/-- Where an `ep_buf` is: in no event, in the event `what` before the stage `s`, or in a callback after
which it goes on with the stage `s`. -/
inductive BufPhase where
  | idle
  | handling (s : BufStage) (what : Mask)
  | calling (s : BufStage) (what : Mask)
  deriving DecidableEq, Repr

/-- What is noted of a run: a call of `ep_buf_enable`, a call of `ep_buf_disable` with the mask of the
file before and after it, and a callback. -/
inductive BufNote where
  | enabled (what : Mask)
  | disabled (what before after : Mask)
  | called (what : Mask)
  deriving DecidableEq, Repr

/-- `struct ep_buf_impl`. -/
structure EpBufImpl where
  file : EpFile := epFileCreate
  listWriteBuf : List (Buf UInt8) := []
  detect : Mask := 0
  isIncb : Bool := false
  isFreePending : Bool := false
  /-- It has not been freed. -/
  alive : Bool := true
  phase : BufPhase := .idle
  /-- All bytes passed to `ep_buf_write`, and all bytes the socket accepted. -/
  written : Bytes := []
  accepted : Bytes := []
  journal : List BufNote := []

/-- Where the code stops being defined, or stops. -/
inductive BufFault where
  | assertFailed
  /-- A function is called with an `ep_buf` that has been freed. -/
  | bufFreed
  deriving DecidableEq, Repr

abbrev EpBufM := EStateM BufFault EpBufImpl

namespace EpBufImpl

/-- `ep_file_detect(buf_impl->file, what, timeout)`. -/
def detectFile (b : EpBufImpl) (what : Mask) (timeout : ℤ) : EpBufImpl :=
  { b with file := epFileDetect b.file what timeout }

/-- Note an observation. -/
def note (b : EpBufImpl) (n : BufNote) : EpBufImpl := { b with journal := b.journal ++ [n] }

/-- User code runs: no event is handled, or one is and a callback has been made. -/
def userRuns (b : EpBufImpl) : Bool :=
  match b.phase with
  | .idle | .calling _ _ => true
  | .handling _ _ => false

end EpBufImpl

/-! ### The functions for the user -/

/-- The mask with which a file is registered that has data to send. -/
def writeMask (b : EpBufImpl) : Mask := epFileGetDetect b.file ||| EP_WRITE

/-- `list_add_tail` of a buffer with `data`, and the `ep_file_detect` behind it. -/
def queueData (b : EpBufImpl) (data : Bytes) : EpBufImpl :=
  { b.detectFile (writeMask b) (epFileGetTimeout b.file) with
    listWriteBuf := b.listWriteBuf ++ [Buf.fresh data] }

/-- `ep_buf_write`; `none` when the assertion `len` of `ep_buffer_create` fails.  An error of `send()` is
not looked at. -/
def epBufWrite (b : EpBufImpl) (data : Bytes) (res : SendResult) : Option EpBufImpl :=
  let b := { b with written := b.written ++ data }
  if b.listWriteBuf.isEmpty then
    match (send [res] data.length).1 with
    | .error _ => some b
    | .ok writeLen =>
      let b := { b with accepted := b.accepted ++ data.take writeLen }
      if writeLen < data.length then some (queueData b (data.drop writeLen)) else some b
  else if data.isEmpty then none
  else some (queueData b data)

/-- The mask that `ep_buf_enable` asks for. -/
def enableMask (detect what : Mask) : Mask :=
  if what &&& EP_BUF_READ ≠ 0 then detect ||| EP_READ
  else if what &&& EP_BUF_WRITE ≠ 0 then detect ||| EP_WRITE
  else detect

/-- `ep_buf_enable`. -/
def epBufEnable (b : EpBufImpl) (what : Mask) : EpBufImpl :=
  { b.detectFile (enableMask (epFileGetDetect b.file) what) (epFileGetTimeout b.file) with
    detect := what }.note (.enabled what)

/-- The mask that `ep_buf_disable` asks for: `!EP_READ` and `!EP_WRITE` are `0`. -/
def disableMask (detect what : Mask) : Mask :=
  if what &&& EP_BUF_READ ≠ 0 then detect &&& 0
  else if what &&& EP_BUF_WRITE ≠ 0 then detect &&& 0
  else detect

/-- `ep_buf_disable`. -/
def epBufDisable (b : EpBufImpl) (what : Mask) : EpBufImpl :=
  let b' := b.detectFile (disableMask (epFileGetDetect b.file) what) (epFileGetTimeout b.file)
  { b' with detect := what }.note (.disabled what b.file.mask b'.file.mask)

/-- `ep_buf_set_timeout`. -/
def epBufSetTimeout (b : EpBufImpl) (ms : ℤ) : EpBufImpl := b.detectFile (epFileGetDetect b.file) ms

/-- The loop of `ep_buf_get_output_len`, with `int` addition. -/
def outputLen (q : List (Buf UInt8)) : ℤ :=
  q.foldl (fun res pos => wrap32 (res + (pos.data.length - pos.sent))) 0

/-- `ep_buf_get_output_len`. -/
def epBufGetOutputLen (b : EpBufImpl) : ℤ := outputLen b.listWriteBuf

/-- `ep_buf_free`. -/
def epBufFree (b : EpBufImpl) : EpBufImpl :=
  if b.isIncb then { b with isFreePending := true }
  else { b.detectFile 0 (-1) with listWriteBuf := [], alive := false }

/-! ### The event callback -/

/-- The errors after which `ep_buf_file_writecb` tries again later; `EWOULDBLOCK` is `EAGAIN`. -/
def retries : Errno → Bool
  | .EINPROGRESS | .EAGAIN | .EWOULDBLOCK => true
  | .other => false

/-- The user is called back, and the handler then goes on with the stage `s`. -/
def callBack (b : EpBufImpl) (call : Mask) (s : BufStage) (what : Mask) : EpBufImpl :=
  { b with phase := .calling s what }.note (.called call)

/-- A pending free is carried out and the event is over, or the handler goes on with the stage `s`. -/
def proceed (b : EpBufImpl) (s : BufStage) (what : Mask) : EpBufImpl :=
  if b.isFreePending then { epBufFree { b with isFreePending := false } with phase := .idle }
  else { b with phase := .handling s what }

/-- What `write()` leaves of `list_write_buf`, and whether it failed for good.  The loop ends after one
buffer in every case, and `pos->len_sent == pos->len_sent` always holds, so that a buffer of which some
bytes were accepted is freed. -/
def writeFirst (b : EpBufImpl) (res : SendResult) : EpBufImpl × Bool :=
  match b.listWriteBuf with
  | [] =>
    (b.detectFile (epFileGetDetect b.file &&& ~~~EP_WRITE) (epFileGetTimeout b.file), false)
  | pos :: n =>
    match (send [res] pos.rest.length).1 with
    | .error e => (b, !retries e)
    | .ok lenWrite =>
      ({ b with accepted := b.accepted ++ pos.rest.take lenWrite, listWriteBuf := n }, false)

/-- `ep_buf_file_writecb` up to the `EP_BUF_WRITE` callback. -/
def epBufFileWritecb (b : EpBufImpl) (what : Mask) (res : SendResult) : EpBufImpl :=
  let detect := epFileGetDetect b.file
  let timeout := epFileGetTimeout b.file
  let (b, isError) := writeFirst b res
  let b :=
    if b.listWriteBuf.isEmpty then
      { b.detectFile (detect &&& ~~~EP_WRITE) timeout with isIncb := false }
    else b
  if b.listWriteBuf.isEmpty && b.isFreePending then proceed b .writeCallback what
  else if isError then
    callBack { b.detectFile 0 (-1) with isIncb := true } EP_BUF_ERROR .writeCallback what
  else { b with phase := .handling .writeCallback what }

/-- `ep_buf_file_readcb`. -/
def epBufFileReadcb (b : EpBufImpl) (what : Mask) : EpBufImpl :=
  let b := { b with isIncb := true }
  if b.detect &&& EP_BUF_READ ≠ 0 then callBack b EP_BUF_READ .error what
  else proceed b .error what

/-- The next stage of `ep_buf_file_eventcb`. -/
def epBufFileEventcb (b : EpBufImpl) (s : BufStage) (what : Mask) (res : SendResult) : EpBufImpl :=
  match s with
  | .write =>
    if what &&& EP_WRITE ≠ 0 then epBufFileWritecb b what res
    else { b with phase := .handling .read what }
  | .writeCallback =>
    if b.detect &&& EP_BUF_WRITE ≠ 0 then
      callBack { b with isIncb := true } EP_BUF_WRITE .read what
    else { b with phase := .handling .read what }
  | .read =>
    if what &&& EP_READ ≠ 0 then epBufFileReadcb b what
    else { b with phase := .handling .error what }
  | .error =>
    if what &&& EP_ERROR ≠ 0 then callBack (b.detectFile 0 (-1)) EP_BUF_ERROR .done what
    else { b with phase := .idle }
  | .done => { b with phase := .idle }

/-- The callback returns.  After the one of the `EP_ERROR` branch nothing is done any more. -/
def callbackReturns (b : EpBufImpl) (s : BufStage) (what : Mask) : EpBufImpl :=
  match s with
  | .done => { b with phase := .idle }
  | s => proceed { b with isIncb := false } s what

/-! ### Steps -/

/-- A call by the user. -/
inductive BufCall where
  | write (data : Bytes) (res : SendResult)
  | enable (what : Mask)
  | disable (what : Mask)
  | setTimeout (ms : ℤ)
  | free

/-- What can happen next. -/
inductive BufInput where
  | call (c : BufCall)
  /-- `epoll_wait` reports `what` for the socket. -/
  | event (what : Mask)
  /-- The next stage of the event, with the answer of `write()`. -/
  | next (res : SendResult)
  | ret

/-- The function that the user calls; `none` when an assertion fails. -/
def performCall (b : EpBufImpl) : BufCall → Option EpBufImpl
  | .write data res => epBufWrite b data res
  | .enable what => some (epBufEnable b what)
  | .disable what => some (epBufDisable b what)
  | .setTimeout ms => some (epBufSetTimeout b ms)
  | .free => some (epBufFree b)

/-- `epoll` reports the events a file is registered for, and errors of any file that is registered. -/
def canReport (ev : EpFile) (what : Mask) : Bool :=
  ev.mask ≠ 0 && (!wantsRead what || wantsRead ev.mask) && (!wantsWrite what || wantsWrite ev.mask)

/-- One step of an `ep_buf`, its user and its socket; what cannot happen is skipped. -/
def bufStep (i : BufInput) : EpBufM Unit := do
  let b ← get
  match i, b.phase with
  | .call c, _ =>
    if !b.userRuns then pure ()
    else if !b.alive then throw .bufFreed
    else
      match performCall b c with
      | none => throw .assertFailed
      | some b => set b
  | .event what, .idle =>
    if canReport b.file what then set { b with phase := .handling .write what } else pure ()
  | .next res, .handling s what => set (epBufFileEventcb b s what res)
  | .ret, .calling s what => set (callbackReturns b s what)
  | _, _ => pure ()

/-- `ep_buf_create`. -/
def EpBufImpl.init : EpBufImpl := {}

end H2ClientProxy
