import H2ClientProxy.Ep.File
import H2ClientProxy.Lib.Machine
import H2ClientProxy.Lib.Wrap32
import Mathlib.Logic.Function.Basic
import Mathlib.Tactic.Simps.Basic

/-!
# The event base: `ep.c`

The timers and the files of one `ep_base`, with every heap object of `ep.c` under a name of its own:
an `ep_timer` and an `ep_file` each point to an `ep_timer_info`, which is the node that is linked in
`list_timers`, and which `ep_timer_del` frees.

* `get_ms()` answers `now`; the environment sets it before each step.
* `ep_timer_check` calls user code from inside its loop, and this code may call any function of `ep.c`.
  So the loop is a machine: `checkAt` runs it up to the next callback, `checking` keeps the local
  variables while the callback runs, and `epTimerCheckRet` goes on when it returns.
-/

namespace H2ClientProxy.Ep

open Wrap32

abbrev InfoId := ℕ
abbrev TimerId := ℕ
abbrev FileId := ℕ
abbrev Fd := ℕ

/-- `timer_type` and `info` of a `struct ep_timer_info`: what it belongs to. -/
inductive InfoOwner where
  | timer (t : TimerId)
  | file (f : FileId)
  deriving DecidableEq, Repr

/-- `struct ep_timer_info`. -/
structure TimerInfo where
  owner : InfoOwner
  timeoutMs : ℤ := 0
  pending : Bool := false
  deriving DecidableEq, Repr

/-- `struct ep_timer`. -/
structure EpTimer where
  info : Option InfoId := none
  pending : Bool := false
  deriving DecidableEq, Repr

/-- `struct ep_file`. -/
structure File where
  fd : Fd
  timerInfo : Option InfoId := none
  timeout : ℤ := -1
  deriving DecidableEq, Repr

/-- `struct ep_fd_info`. -/
structure FdInfo where
  mask : Mask := 0
  file : Option FileId := none
  deriving DecidableEq, Repr

/-- The callback that `ep_timer_check` is in: of a timer, or of a file with its descriptor `fd`, which
the loop has read before the call. -/
inductive Callback where
  | timer (t : TimerId)
  | file (f : FileId) (fd : Fd)
  deriving DecidableEq, Repr

/-- Where a pointer into `list_timers` leads.  The `next` of an entry that `list_del` has taken out is
`LIST_POISON1`. -/
inductive ListPos where
  | head
  | entry (i : InfoId)
  | poison
  deriving DecidableEq, Repr

/-- The local variables of `ep_timer_check` during a callback.  `temp` is where the loop will go on. -/
structure Cursor where
  ms : ℤ
  callback : Callback
  temp : ListPos
  deriving DecidableEq, Repr

/-- `struct ep_base` and the objects that belong to it. -/
structure EpBase where
  infos : InfoId → Option TimerInfo := fun _ => none
  nextInfo : InfoId := 0
  timers : TimerId → Option EpTimer := fun _ => none
  nextTimer : TimerId := 0
  epFiles : FileId → Option File := fun _ => none
  nextFile : FileId := 0
  /-- `base->files`. -/
  files : Fd → FdInfo := fun _ => {}
  fdCount : ℤ := 0
  /-- The events each descriptor is registered for in epoll. -/
  poll : Fd → Option Mask := fun _ => none
  listTimers : List InfoId := []
  checking : Option Cursor := none
  /-- The entries that `ep_timer_check` has gone on with although they were not in the list any more.
  No function reads this. -/
  stale : List InfoId := []
  now : ℤ := 0

/-- What goes wrong. -/
inductive EpFault where
  /-- a freed object is used -/
  | infoFreed (i : InfoId)
  | timerFreed (t : TimerId)
  | fileFreed (f : FileId)
  /-- `LIST_POISON1` is followed -/
  | poison
  deriving DecidableEq, Repr

abbrev EpM := EStateM EpFault EpBase

namespace EpBase

/-- Replace (or free) an `ep_timer_info`. -/
@[simps -fullyApplied]
def setInfo (b : EpBase) (i : InfoId) (info : Option TimerInfo) : EpBase :=
  { b with infos := Function.update b.infos i info }

/-- A new `ep_timer_info`. -/
@[simps -fullyApplied]
def addInfo (b : EpBase) (owner : InfoOwner) : EpBase :=
  { b with infos := Function.update b.infos b.nextInfo (some { owner := owner })
           nextInfo := b.nextInfo + 1 }

/-- Replace (or free) an `ep_timer`. -/
@[simps -fullyApplied]
def setTimer (b : EpBase) (t : TimerId) (tm : Option EpTimer) : EpBase :=
  { b with timers := Function.update b.timers t tm }

/-- Replace (or free) an `ep_file`. -/
@[simps -fullyApplied]
def setFile (b : EpBase) (f : FileId) (file : Option File) : EpBase :=
  { b with epFiles := Function.update b.epFiles f file }

/-- Register a descriptor: its slot in `files`, its events in epoll, and the count. -/
@[simps -fullyApplied]
def setFd (b : EpBase) (fd : Fd) (slot : FdInfo) (events : Option Mask) (fdCount : ℤ) : EpBase :=
  { b with files := Function.update b.files fd slot
           poll := Function.update b.poll fd events
           fdCount := fdCount }

@[simps -fullyApplied]
def setList (b : EpBase) (l : List InfoId) : EpBase := { b with listTimers := l }

@[simps -fullyApplied]
def setChecking (b : EpBase) (cursor : Option Cursor) : EpBase := { b with checking := cursor }

/-- `ep_timer_check` comes to the entry `i`. -/
@[simps -fullyApplied]
def visit (b : EpBase) (i : InfoId) : EpBase :=
  { b with stale := if i ∈ b.listTimers then b.stale else b.stale ++ [i] }

/-- `timeout_ms` of an entry. -/
def timeoutOf (b : EpBase) (i : InfoId) : ℤ := ((b.infos i).map TimerInfo.timeoutMs).getD 0

/-- The deadlines in `list_timers`, in its order. -/
def deadlines (b : EpBase) : List ℤ := b.listTimers.map b.timeoutOf

end EpBase

def getInfo (i : InfoId) : EpM TimerInfo := do
  match (← get).infos i with
  | some info => return info
  | none => throw (.infoFreed i)

def getTimer (t : TimerId) : EpM EpTimer := do
  match (← get).timers t with
  | some tm => return tm
  | none => throw (.timerFreed t)

def getFile (f : FileId) : EpM File := do
  match (← get).epFiles f with
  | some file => return file
  | none => throw (.fileFreed f)

/-! ### The list of timers -/

/-- `ep_timer_info_create`. -/
def epTimerInfoCreate (owner : InfoOwner) : EpM InfoId := do
  let b ← get
  modify (·.addInfo owner)
  return b.nextInfo

/-- The loop of `ep_timer_info_add`: the index `k` of the last entry whose deadline exceeds the delay
`millsec`, behind whose predecessor the new entry goes. -/
def posAdd (millsec : ℤ) : List ℤ → ℕ → Option ℕ → Option ℕ
  | [], _, acc => acc
  | d :: ds, k, acc => posAdd millsec ds (k + 1) (if d > millsec then some k else acc)

/-- The list after `ep_timer_info_add`. -/
def insertTimer (b : EpBase) (i : InfoId) (millsec : ℤ) : List InfoId :=
  match posAdd millsec b.deadlines 0 none with
  | none => b.listTimers ++ [i]
  | some k => b.listTimers.take k ++ i :: b.listTimers.drop k

/-- `ep_timer_info_add`. -/
def epTimerInfoAdd (i : InfoId) (millsec : ℤ) : EpM Unit := do
  let info ← getInfo i
  if info.pending then pure ()
  else
    modify fun b =>
      (b.setList (insertTimer b i millsec)).setInfo i
        (some { info with pending := true, timeoutMs := wrap32 (b.now + millsec) })

/-- `ep_timer_info_del`. -/
def epTimerInfoDel (i : InfoId) : EpM Unit := do
  let info ← getInfo i
  if info.pending then
    modify fun b =>
      (b.setInfo i (some { info with pending := false })).setList (b.listTimers.erase i)
  else pure ()

/-- `ep_timer_get_next`. -/
def epTimerGetNext (b : EpBase) : ℤ :=
  match b.listTimers with
  | [] => -1
  | first :: _ => wrap32 (b.timeoutOf first - b.now)

/-- The timeout that an iteration of `ep_base_dispatch` passes to `ep_poll_dispatch`, which passes it to
`epoll_wait`: a negative one blocks without limit. -/
def dispatchTimeout (b : EpBase) : ℤ :=
  let timeout := epTimerGetNext b
  if timeout < 0 then -1 else timeout

/-! ### Timers -/

/-- `ep_timer_new`. -/
def epTimerNew : EpM TimerId := do
  let b ← get
  modify fun b => { b.setTimer b.nextTimer (some {}) with nextTimer := b.nextTimer + 1 }
  return b.nextTimer

/-- `ep_timer_add`. -/
def epTimerAdd (t : TimerId) (millsec : ℤ) : EpM Unit := do
  let tm ← getTimer t
  let i ← match tm.info with
    | some i => pure i
    | none => epTimerInfoCreate (.timer t)
  modify (·.setTimer t (some { info := some i, pending := true }))
  epTimerInfoAdd i millsec

/-- Unlink and free the `ep_timer_info` of a timer, as `ep_timer_del` and `ep_timer_free` do. -/
def dropInfo (info : Option InfoId) : EpM Unit := do
  match info with
  | none => pure ()
  | some i =>
    epTimerInfoDel i
    modify (·.setInfo i none)

/-- `ep_timer_del`. -/
def epTimerDel (t : TimerId) : EpM Unit := do
  let tm ← getTimer t
  dropInfo tm.info
  modify (·.setTimer t (some {}))

/-- `ep_timer_free`. -/
def epTimerFree (t : TimerId) : EpM Unit := do
  let tm ← getTimer t
  dropInfo tm.info
  modify (·.setTimer t none)

/-- `ep_timer_pending`. -/
def epTimerPending (t : TimerId) : EpM Bool := do
  return (← getTimer t).pending

/-! ### Files -/

/-- `ep_file_create`. -/
def epFileCreate (fd : Fd) : EpM FileId := do
  let b ← get
  modify fun b =>
    { (b.setFile b.nextFile (some { fd := fd })).setFd fd
        { b.files fd with file := some b.nextFile } (b.poll fd) b.fdCount with
      nextFile := b.nextFile + 1 }
  return b.nextFile

/-- The node of a file, which is created when it is needed for the first time. -/
def fileInfo (f : FileId) (file : File) : EpM InfoId := do
  match file.timerInfo with
  | some i => pure i
  | none =>
    let i ← epTimerInfoCreate (.file f)
    modify (·.setFile f (some { file with timerInfo := some i }))
    return i

/-- The events that `ep_poll_add` and `ep_poll_mod` register. -/
def pollEvents (what : Mask) : Mask := what &&& (EP_READ ||| EP_WRITE)

/-- The slot of a descriptor after `ep_file_detect` has registered `what`, with its events and the
count of descriptors. -/
def detectFd (b : EpBase) (f : FileId) (fd : Fd) (what : Mask) : EpBase :=
  let slot := b.files fd
  if slot.mask = 0 then
    b.setFd fd { mask := what, file := some f } (some (pollEvents what)) (b.fdCount + 1)
  else if what = 0 then b.setFd fd { mask := what, file := none } none (b.fdCount - 1)
  else b.setFd fd { slot with mask := what } (some (pollEvents what)) b.fdCount

/-- `ep_file_detect`. -/
def epFileDetect (f : FileId) (what : Mask) (timeout : ℤ) : EpM Unit := do
  let file ← getFile f
  if ((← get).files file.fd).mask = 0 ∧ what = 0 then pure ()
  else
    modify fun b => (detectFd b f file.fd what).setFile f (some { file with timeout := timeout })
    if timeout ≥ 0 ∧ what ≠ 0 then
      let i ← fileInfo f { file with timeout := timeout }
      epTimerInfoDel i
      epTimerInfoAdd i timeout
    else
      match file.timerInfo with
      | some i => epTimerInfoDel i
      | none => pure ()

/-- `ep_file_free`. -/
def epFileFree (f : FileId) : EpM Unit := do
  let file ← getFile f
  match file.timerInfo with
  | none => pure ()
  | some i =>
    let info ← getInfo i
    modify fun b =>
      (if info.pending then b.setList (b.listTimers.erase i) else b).setInfo i none
    modify (·.setFile f (some { file with timerInfo := none }))
  epFileDetect f 0 (-1)
  modify (·.setFile f none)

/-! ### `ep_timer_check` -/

/-- The entry after `i` in the list; `none` for the head. -/
def nextOf (l : List InfoId) (i : InfoId) : Option InfoId := (l.dropWhile (· ≠ i)).tail.head?

/-- An entry of the list, or its head. -/
def ListPos.ofOption : Option InfoId → ListPos
  | none => .head
  | some i => .entry i

/-- The `next` of an entry. -/
def nextPos (l : List InfoId) (i : InfoId) : ListPos :=
  if i ∈ l then .ofOption (nextOf l i) else .poison

/-- The body of the loop of `ep_timer_check` for an entry that is due, up to the callback. -/
def fireInfo (ms : ℤ) (i : InfoId) (info : TimerInfo) (temp : ListPos) : EpM Unit := do
  epTimerInfoDel i
  let callback ← match info.owner with
    | .timer t => pure (Callback.timer t)
    | .file f => do
      let file ← getFile f
      pure (Callback.file f file.fd)
  modify (·.setChecking (some ⟨ms, callback, temp⟩))

/-- One round of the loop of `ep_timer_check` with `pos` at an entry or at the head: it ends the loop,
or unlinks the entry and calls back.  The entry may have been unlinked before. -/
def checkAt (ms : ℤ) (pos : ListPos) : EpM Unit := do
  match pos with
  | .head => modify (·.setChecking none)
  | .poison => throw .poison
  | .entry i =>
    modify (·.visit i)
    let info ← getInfo i
    let temp := nextPos (← get).listTimers i
    if info.timeoutMs > ms then modify (·.setChecking none)
    else fireInfo ms i info temp

/-- `ep_timer_check`, up to the first callback. -/
def epTimerCheck : EpM Unit := do
  let b ← get
  checkAt b.now (.ofOption b.listTimers.head?)

/-- A file whose callback has returned is armed again, if it still owns its descriptor and has a
timeout. -/
def rearmFile (fd : Fd) : EpM Unit := do
  match ((← get).files fd).file with
  | none => pure ()
  | some f =>
    let file ← getFile f
    if file.timeout ≥ 0 then
      let i ← fileInfo f file
      epTimerInfoAdd i file.timeout
    else pure ()

/-- The callback of `ep_timer_check` returns: the loop goes on, up to the next callback. -/
def epTimerCheckRet : EpM Unit := do
  match (← get).checking with
  | none => pure ()
  | some cursor =>
    match cursor.callback with
    | .timer _ => pure ()
    | .file _ fd => rearmFile fd
    checkAt cursor.ms cursor.temp

/-! ### Steps -/

/-- What the users of the event base do, inside of callbacks and outside. -/
inductive EpAct where
  | timerNew
  | timerAdd (t : TimerId) (millsec : ℤ)
  | timerDel (t : TimerId)
  | timerFree (t : TimerId)
  | fileCreate (fd : Fd)
  | fileDetect (f : FileId) (what : Mask) (timeout : ℤ)
  | fileFree (f : FileId)
  /-- `ep_timer_check` is called. -/
  | check
  /-- The callback that `ep_timer_check` is in returns. -/
  | ret
  deriving DecidableEq, Repr

/-- An action, and the clock while it happens. -/
structure EpInput where
  now : ℤ
  act : EpAct
  deriving DecidableEq, Repr

/-- The functions that take a timer or a file are called with live ones only. -/
def epHandle : EpAct → EpM Unit
  | .timerNew => do
    let _ ← epTimerNew
  | .timerAdd t millsec => do
    if ((← get).timers t).isSome then epTimerAdd t millsec else pure ()
  | .timerDel t => do
    if ((← get).timers t).isSome then epTimerDel t else pure ()
  | .timerFree t => do
    if ((← get).timers t).isSome then epTimerFree t else pure ()
  | .fileCreate fd => do
    let _ ← epFileCreate fd
  | .fileDetect f what timeout => do
    if ((← get).epFiles f).isSome then epFileDetect f what timeout else pure ()
  | .fileFree f => do
    if ((← get).epFiles f).isSome then epFileFree f else pure ()
  | .check => do
    if (← get).checking.isNone then epTimerCheck else pure ()
  | .ret => epTimerCheckRet

/-- One step of the event base. -/
def epStep (i : EpInput) : EpM Unit := do
  modify fun b => { b with now := i.now }
  epHandle i.act

/-- `ep_base_create`. -/
def EpBase.init : EpBase := {}

end H2ClientProxy.Ep
