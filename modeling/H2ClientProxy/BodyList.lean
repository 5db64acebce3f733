import H2ClientProxy.Lib.ListHead
import H2ClientProxy.RelayHttp2.Provider

/-!
# `list_request_body_buffer`, with its links

Body bytes that come before the relay is connected wait in `client->list_request_body_buffer`.  Here
the list is what it is in memory: nodes with the two links of `list.h`, one of them the head in the
client and each other one a member of a buffer.

* Every pointer that is followed must lead to the head or to a live buffer; `list_del` leaves
  `LIST_POISON1` and `LIST_POISON2` behind, which lead nowhere.
* `writes` is not in the source: it records the calls of `relay_write_body`.
-/

namespace H2ClientProxy

open ListHead

/-- The address of a node. -/
inductive Addr where
  /-- `&client->list_request_body_buffer` -/
  | head
  /-- `&buf->list`, of the buffer that was allocated as the `n`-th -/
  | buffer (n : ℕ)
  | poison1
  | poison2
  deriving DecidableEq

/-- The nodes, the buffers that have not been freed and the calls that were made. -/
structure BodyList where
  links : Links Addr
  bufs : ℕ → Option Bytes
  nextBuf : ℕ
  writes : List Bytes

/-- `INIT_LIST_HEAD(&client->list_request_body_buffer)` in a new client. -/
def BodyList.init : BodyList where
  links := Links.init ⟨fun _ => .poison1, fun _ => .poison2⟩ .head
  bufs := fun _ => none
  nextBuf := 0
  writes := []

inductive ListFault where
  | assertFailed
  /-- a pointer to a freed buffer, or a poison, is followed -/
  | wildPointer
  /-- the loop has gone around more often than there are buffers -/
  | diverges
  deriving DecidableEq

abbrev ListM := EStateM ListFault BodyList

/-- Whether there is a node at this address. -/
def BodyList.live (s : BodyList) : Addr → Bool
  | .head => true
  | .buffer n => (s.bufs n).isSome
  | .poison1 => false
  | .poison2 => false

/-- The pointer `a` is followed. -/
def follow (a : Addr) : ListM Unit := do
  if (← get).live a then pure () else throw .wildPointer

/-- `INIT_LIST_HEAD`. -/
def initListHead (list : Addr) : ListM Unit := do
  follow list
  modify fun s => { s with links := s.links.init list }

/-- `list_add_tail`. -/
def listAddTail (newNode list : Addr) : ListM Unit := do
  follow list
  follow newNode
  follow ((← get).links.prev list)
  modify fun s => { s with links := s.links.addTail newNode list }

/-- `list_del`. -/
def listDel (entry : Addr) : ListM Unit := do
  follow entry
  follow ((← get).links.prev entry)
  follow ((← get).links.next entry)
  modify fun s => { s with links := s.links.del entry .poison1 .poison2 }

/-- `a->next`. -/
def nextOf (a : Addr) : ListM Addr := do
  follow a
  return (← get).links.next a

/-- `ep_buffer_create`: the address of the node of the new buffer. -/
def epBufferCreate (data : Bytes) : ListM Addr := do
  if data.isEmpty then throw .assertFailed
  let n := (← get).nextBuf
  modify fun s => { s with bufs := Function.update s.bufs n (some data), nextBuf := n + 1 }
  initListHead (.buffer n)
  return .buffer n

/-- `pos->buf`, whose length is `pos->len_total`. -/
def bufOf : Addr → ListM Bytes
  | .buffer n => do
    match (← get).bufs n with
    | some data => return data
    | none => throw .wildPointer
  | _ => throw .wildPointer

/-- `ep_buffer_free`. -/
def epBufferFree : Addr → ListM Unit
  | .buffer n => modify fun s => { s with bufs := Function.update s.bufs n none }
  | _ => throw .wildPointer

/-- `client_bodycb`, when the status of the relay is below `RELAY_STATUS_CONNECTED`. -/
def bodycbEarly (data : Bytes) : ListM Unit := do
  let buf ← epBufferCreate data
  listAddTail .head buf

/-- `list_for_each_entry_safe` over the list, with the body of the loop of
`client_handle_relay_connected`. -/
def flushLoop : ℕ → Addr → Addr → ListM Unit
  | fuel, pos, tmp =>
    if pos = .head then pure ()
    else
      match fuel with
      | 0 => throw .diverges
      | fuel + 1 => do
        let data ← bufOf pos
        -- `relay_write_body`
        modify fun s => { s with writes := s.writes ++ [data] }
        listDel pos
        epBufferFree pos
        flushLoop fuel tmp (← nextOf tmp)

/-- `client_handle_relay_connected`, behind `relay_send_request`.  Each time around the loop a buffer is
freed, so it cannot go around more often than there were buffers. -/
def handleRelayConnected : ListM Unit := do
  let pos ← nextOf .head
  let tmp ← nextOf pos
  flushLoop (← get).nextBuf pos tmp

/-- The fragments come one after the other. -/
def bodycbAll : List Block → ListM Unit
  | [] => pure ()
  | block :: blocks => do
    bodycbEarly block.data
    bodycbAll blocks

end H2ClientProxy
