import H2ClientProxy.Lib.SendQueue
import H2ClientProxy.Util
import Mathlib.Tactic.SplitIfs

/-!
# Reading from a list of buffers: `ep_buffer.c`

An `ep_buffer` is a block of bytes of which `len_sent` have been handed over; the list of such buffers
is a `List (Buf UInt8)`.  `ep_buffer_read` copies up to `length` of the bytes that are left to `buf`.
-/

namespace H2ClientProxy

open SendQueue

/-- What a call of `ep_buffer_read` leaves: the bytes copied to `buf`, the list, and the number it
returns. -/
structure ReadOut where
  copied : Bytes
  list : List (Buf UInt8)
  cpyLen : ℕ
  deriving DecidableEq

/-- The loop of `ep_buffer_read` behind the `cpyLen` bytes that are in `buf` already. -/
def readLoop (length : ℕ) : List (Buf UInt8) → ℕ → ReadOut
  | [], cpyLen => ⟨[], [], cpyLen⟩
  | pos :: n, cpyLen =>
    let curBufLen := pos.data.length - pos.sent
    if curBufLen ≤ length - cpyLen then
      -- `list_del` and `ep_buffer_free`
      let out := readLoop length n (cpyLen + curBufLen)
      { out with copied := pos.rest ++ out.copied }
    else
      -- `cpy_len` is updated first, so that nothing is added to `len_sent`
      let copied := pos.rest.take (length - cpyLen)
      let cpyLen := cpyLen + (length - cpyLen)
      ⟨copied, pos.advance (length - cpyLen) :: n, cpyLen⟩

/-- `ep_buffer_read`. -/
def epBufferRead (q : List (Buf UInt8)) (length : ℕ) : ReadOut := readLoop length q 0

end H2ClientProxy
