import H2ClientProxy.Lib.Wrap32
import H2ClientProxy.RelayHttp2.Relay

/-!
# The data provider of a request, with its `int`s

`relay_data_source_read_callback` gets the room in nghttp2's buffer as a `size_t` and counts in `int`s.
`copyLoop` is its loop with these conversions written out; `copyOut`, which the state machine of the
proxy uses, is the same loop on natural numbers.

`BodyAct` is one of the three calls that touch the list and the flag of a relay; `written` and `copied`
are not in the source: they record what went in and what came out.
-/

namespace H2ClientProxy

open SendQueue Wrap32

/-- The loop over `list_write_buf`: what is copied behind the `totalCpy` bytes that are in `buf`
already, and what is left of the list.  (`size_t` wraps at `2 ^ 64`, a multiple of `2 ^ 32`, so its own
wrapping does not show in an `int`.)  `none` when a `memcpy` leaves `buf`; its count is a `size_t`,
so a negative `len_cpy` does. -/
def copyLoop (length : ℕ) : List (Buf UInt8) → ℤ → Option (Bytes × List (Buf UInt8))
  | [], _ => some ([], [])
  | pos :: n, totalCpy =>
    let lenLeft := wrap32 (length - totalCpy)
    let lenAvalible := wrap32 (pos.data.length - pos.sent)
    let lenCpy := if lenLeft < lenAvalible then lenLeft else lenAvalible
    if 0 ≤ lenCpy ∧ totalCpy + lenCpy ≤ length then
      let pos' := pos.advance lenCpy.toNat
      if pos'.sent = pos'.data.length then
        -- `list_del` and `ep_buffer_free`
        (copyLoop length n (wrap32 (totalCpy + lenCpy))).map fun out =>
          (pos.rest.take lenCpy.toNat ++ out.1, out.2)
      else some (pos.rest.take lenCpy.toNat, pos' :: n)
    else none

/-- A relay, the bytes it was given and the bytes nghttp2 has got from it. -/
structure BodyState where
  relay : Relay := { session := true, args := 0 }
  written : Bytes := []
  copied : Bytes := []
  deriving DecidableEq

/-- After `relay_create`. -/
def BodyState.init : BodyState := {}

/-- The one fault: a `memcpy` outside its buffer. -/
inductive CopyFault where
  | outOfBounds
  deriving DecidableEq

abbrev BodyM := EStateM CopyFault BodyState

/-- `relay_data_source_read_callback`. -/
def relayDataSourceReadCallback (length : ℕ) : BodyM ReadResult := do
  let s ← get
  match copyLoop length s.relay.listWriteBuf 0 with
  | none => throw .outOfBounds
  | some (out, q) =>
    modify fun s => { s with
      relay := { s.relay with listWriteBuf := q }, copied := s.copied ++ out }
    if out.isEmpty then
      return if s.relay.isRequestComplete && q.isEmpty then .eof else .deferred
    else return .copied out

/-- A non-empty block whose length is an `int`. -/
structure Block where
  data : Bytes
  ne_nil : data ≠ []
  length_lt : data.length < 2 ^ 31
  deriving DecidableEq

/-- The two bytes `"ab"`. -/
def blockAb : Block := ⟨bytes "ab", by decide, by decide⟩

/-- One of the calls. -/
inductive BodyAct where
  /-- `relay_write_body` -/
  | write (block : Block)
  /-- `relay_complete_request` -/
  | complete
  /-- `relay_data_source_read_callback` -/
  | read (length : ℕ)
  deriving DecidableEq

/-- The relay after `ep_buffer_create` and `list_add_tail`. -/
def Relay.queueBody (rel : Relay) (data : Bytes) : Relay :=
  { rel with listWriteBuf := rel.listWriteBuf ++ [Buf.fresh data] }

/-- One call.  What `relay_write_body` does to the session can make nghttp2 read: that is a call of its
own. -/
def bodyStep : BodyAct → BodyM Unit
  | .write block => modify fun s => { s with
      relay := s.relay.queueBody block.data, written := s.written ++ block.data }
  | .complete => modify fun s => { s with relay := { s.relay with isRequestComplete := true } }
  | .read length => do
    let _ ← relayDataSourceReadCallback length

end H2ClientProxy
