import H2ClientProxy.Lib.Wp
import Mathlib.Algebra.Order.Ring.Int
import Mathlib.Data.Int.Notation

/-!
# The receiving window of the connection

How many bytes of `DATA` the peer may still send on the whole connection is kept by nghttp2 in four
`int32_t` members of the session.  nghttp2 charges every chunk to them and hands it to
`relay_on_data_chunk_recv_callback`, which answers with a `WINDOW_UPDATE` for the connection.

* Every `int32_t` computation is written with `int32`, which faults when the result does not fit.
* `updates` is what the session queues for the peer: the `WINDOW_UPDATE` frames for stream 0.
-/

namespace H2ClientProxy

/-- The members of `struct nghttp2_session` for the flow control of the connection. -/
structure ConnWindow where
  localWindowSize : ℤ := 65535
  recvWindowSize : ℤ := 0
  recvReduction : ℤ := 0
  consumedSize : ℤ := 0
  /-- The increments of the `WINDOW_UPDATE` frames that were queued for stream 0. -/
  updates : List ℤ := []
  deriving DecidableEq

/-- A new session. -/
def ConnWindow.init : ConnWindow := {}

/-- What the peer may still send. -/
def ConnWindow.credit (w : ConnWindow) : ℤ := w.localWindowSize - w.recvWindowSize

/-- What ends the processing of a chunk. -/
inductive WindowFault where
  /-- an `int32_t` computation overflows -/
  | overflow
  /-- `nghttp2_session_terminate_session` with `NGHTTP2_FLOW_CONTROL_ERROR` -/
  | flowControlError
  deriving DecidableEq

abbrev WindowM := EStateM WindowFault ConnWindow

/-- `NGHTTP2_MAX_WINDOW_SIZE`. -/
def maxWindowSize : ℤ := 2 ^ 31 - 1

/-- The result of an `int32_t` computation. -/
def int32 (x : ℤ) : WindowM ℤ :=
  if -2 ^ 31 ≤ x ∧ x ≤ 2 ^ 31 - 1 then pure x else throw .overflow

/-- `nghttp2_session_add_window_update` for stream 0. -/
def addWindowUpdate (increment : ℤ) : WindowM Unit :=
  modify fun w => { w with updates := w.updates ++ [increment] }

/-- `adjust_recv_window_size` on the members of the session, as
`session_update_recv_connection_window_size` calls it (automatic updates are switched off). -/
def adjustRecvWindowSize (delta : ℤ) : WindowM Unit := do
  let w ← get
  if w.recvWindowSize > (← int32 (w.localWindowSize - (← int32 delta))) then
    throw .flowControlError
  if w.recvWindowSize > (← int32 (maxWindowSize - (← int32 delta))) then
    throw .flowControlError
  let recv ← int32 (w.recvWindowSize + delta)
  modify fun w => { w with recvWindowSize := recv }

/-- `nghttp2_should_send_window_update`. -/
def shouldSendWindowUpdate (localWindowSize recvWindowSize : ℤ) : Bool :=
  decide (recvWindowSize ≥ localWindowSize.tdiv 2)

/-- `session_update_connection_consumed_size`, for padding. -/
def updateConsumedSize (delta : ℤ) : WindowM Unit := do
  let w ← get
  if w.consumedSize > maxWindowSize - delta then
    throw .flowControlError
  let consumed ← int32 (w.consumedSize + delta)
  let recvSize := min consumed w.recvWindowSize
  if shouldSendWindowUpdate w.localWindowSize recvSize then
    addWindowUpdate recvSize
    let recv ← int32 (w.recvWindowSize - recvSize)
    let consumed ← int32 (consumed - recvSize)
    modify fun w => { w with recvWindowSize := recv, consumedSize := consumed }
  else
    modify fun w => { w with consumedSize := consumed }

/-- `nghttp2_adjust_local_window_size` on the members of the session.  The answer is the new
`*delta_ptr`, or nothing for `NGHTTP2_ERR_FLOW_CONTROL`. -/
def adjustLocalWindowSize (deltaPtr : ℤ) : WindowM (Option ℤ) := do
  let w ← get
  if deltaPtr > 0 then
    let newRecv ← int32 (max 0 w.recvWindowSize - deltaPtr)
    if newRecv ≥ 0 then
      modify fun w => { w with recvWindowSize := newRecv }
      return some deltaPtr
    let delta ← int32 (-newRecv)
    if w.localWindowSize > (← int32 (maxWindowSize - delta)) then
      return none
    let localSize ← int32 (w.localWindowSize + delta)
    let reductionDelta := min w.recvReduction delta
    let reduction ← int32 (w.recvReduction - reductionDelta)
    let recv ← if w.recvWindowSize < 0 then int32 (w.recvWindowSize + reductionDelta)
      else pure reductionDelta
    modify fun w => { w with
      localWindowSize := localSize, recvReduction := reduction, recvWindowSize := recv }
    return some (← int32 (deltaPtr - reductionDelta))
  else
    let low ← int32 (w.localWindowSize + deltaPtr)
    if low < 0 then return none
    if w.recvWindowSize < (← int32 (-2 ^ 31 - deltaPtr)) then return none
    if w.recvReduction > (← int32 (2 ^ 31 - 1 + deltaPtr)) then return none
    let recv ← int32 (w.recvWindowSize + deltaPtr)
    let reduction ← int32 (w.recvReduction - deltaPtr)
    modify fun w => { w with
      localWindowSize := low, recvReduction := reduction, recvWindowSize := recv }
    return some 0

/-- `nghttp2_submit_window_update` for stream 0. -/
def submitConnWindowUpdate (increment : ℤ) : WindowM Unit := do
  if increment = 0 then return
  match ← adjustLocalWindowSize increment with
  | none => return
  | some increment =>
    if increment > 0 then
      let w ← get
      let consumed := max 0 (← int32 (w.consumedSize - increment))
      modify fun w => { w with consumedSize := consumed }
      addWindowUpdate increment

/-- What `relay_on_data_chunk_recv_callback` does to the window of the connection; `isAttached` says
whether the stream has an attached relay. -/
def relayOnDataChunkRecvWindow (isAttached : Bool) : WindowM Unit := do
  let sessionWindowLen := (← get).localWindowSize
  if !isAttached then return
  if sessionWindowLen > 30000 then
    submitConnWindowUpdate sessionWindowLen

/-- A chunk of a `DATA` frame: its data and the padding that was read with it. -/
structure DataChunk where
  len : ℕ
  padlen : ℕ := 0
  isAttached : Bool := true
  deriving DecidableEq

/-- `IB_READ_DATA` of `nghttp2_session_mem_recv`. -/
def recvDataChunk (chunk : DataChunk) : WindowM Unit := do
  let readlen := chunk.len + chunk.padlen
  if readlen = 0 then return
  adjustRecvWindowSize readlen
  if chunk.padlen > 0 then
    updateConsumedSize chunk.padlen
  if chunk.len > 0 then
    relayOnDataChunkRecvWindow chunk.isAttached

end H2ClientProxy
