import H2ClientProxy.Lib.Machine
import H2ClientProxy.RelayHttp2.Window
import Mathlib.Tactic.Linarith

/-!
# The peer never runs out of credit on the connection

`relay_on_data_chunk_recv_callback` advertises the size of the local window, not the number of bytes
received: the window grows with every chunk until nghttp2 rejects the update because the window
would pass `2^31 - 1`.

* `WindowOk`: what holds of the members of the session between two chunks, when so many bytes have been
  received.
* `submitConnWindowUpdate_spec`: an update for the local window size makes the credit positive.  If
  everything was used up, it is all given back; if not, an accepted update gives back all received
  bytes and more, and a rejected one leaves a credit that was positive already.
* `wp_run_credit`: so the credit is positive after every chunk of every run.
-/

namespace H2ClientProxy

open Wp Machine

variable {total : ℤ}

/-- The bytes that the chunks take from the credit. -/
def receivedBytes (chunks : List DataChunk) : ℤ :=
  (chunks.map fun chunk => ((chunk.len + chunk.padlen : ℕ) : ℤ)).sum

/-- The members of the session between two chunks, after `total` bytes.  The local window is never
reduced, so `recv_reduction` stays zero, and only padding is ever consumed. -/
structure WindowOk (total : ℤ) (w : ConnWindow) : Prop where
  localLow : 65535 ≤ w.localWindowSize
  localHigh : w.localWindowSize ≤ 2 ^ 31 - 1
  consumedLow : 0 ≤ w.consumedSize
  consumedHigh : w.consumedSize ≤ w.recvWindowSize
  recvHigh : w.recvWindowSize ≤ w.localWindowSize
  noReduction : w.recvReduction = 0
  balance : w.credit = 65535 + w.updates.sum - total

theorem receivedBytes_concat (chunks : List DataChunk) (chunk : DataChunk) :
    receivedBytes (chunks ++ [chunk]) = receivedBytes chunks + (chunk.len + chunk.padlen : ℕ) := by
  rw [receivedBytes, List.map_append, List.sum_append, List.map_singleton, List.sum_singleton, receivedBytes]

theorem windowOk_init : WindowOk 0 .init := by
  constructor <;> decide

/-! ### The functions of nghttp2 -/

/-- A computation whose result fits does not overflow. -/
theorem int32_bind {α : Type} {x : ℤ} {f : ℤ → WindowM α} {Q : α → ConnWindow → Prop}
    {E : WindowFault → ConnWindow → Prop} {w : ConnWindow} (hlow : -2 ^ 31 ≤ x)
    (hhigh : x ≤ 2 ^ 31 - 1) (h : wp (f x) Q E w) : wp (int32 x >>= f) Q E w := by
  rw [int32, if_pos ⟨hlow, hhigh⟩, pure_bind]
  exact h

/-- A chunk within the credit is charged to the received bytes. -/
theorem adjustRecvWindowSize_spec {w : ConnWindow} {delta : ℤ} (hw : WindowOk total w) (h0 : 0 ≤ delta)
    (hd : delta ≤ w.credit) :
    wp (adjustRecvWindowSize delta)
      (fun _ w' => WindowOk (total + delta) w' ∧ w'.localWindowSize = w.localWindowSize ∧
        w'.consumedSize + delta ≤ w'.recvWindowSize)
      (fun _ _ => False) w := by
  obtain ⟨hl, hh, hc0, hc, hr, hred, hb⟩ := hw
  have hfit : w.recvWindowSize + delta ≤ w.localWindowSize := by
    unfold ConnWindow.credit at hd
    omega
  rw [adjustRecvWindowSize, wp_bind, wp_get]
  dsimp only
  have hmaxw : maxWindowSize = 2 ^ 31 - 1 := rfl
  apply int32_bind (by omega) (by omega)
  apply int32_bind (by omega) (by omega)
  rw [if_neg (by omega)]
  apply int32_bind (by omega) (by omega)
  apply int32_bind (by omega) (by omega)
  rw [if_neg (by omega)]
  apply int32_bind (by omega) (by omega)
  rw [wp_modify]
  refine ⟨⟨hl, hh, hc0, ?_, hfit, hred, ?_⟩, rfl, ?_⟩
  · show w.consumedSize ≤ w.recvWindowSize + delta
    omega
  · unfold ConnWindow.credit at hb ⊢
    show w.localWindowSize - (w.recvWindowSize + delta) =
      65535 + w.updates.sum - (total + delta)
    omega
  · show w.consumedSize + delta ≤ w.recvWindowSize + delta
    omega

/-- Consumed padding is given back at once or kept for later; either way the books balance. -/
theorem updateConsumedSize_spec {w : ConnWindow} {delta : ℤ} (hw : WindowOk total w) (h0 : 0 ≤ delta)
    (hd : w.consumedSize + delta ≤ w.recvWindowSize) :
    wp (updateConsumedSize delta)
      (fun _ w' => WindowOk total w' ∧ w'.localWindowSize = w.localWindowSize)
      (fun _ _ => False) w := by
  obtain ⟨hl, hh, hc0, hc, hr, hred, hb⟩ := hw
  rw [updateConsumedSize, wp_bind, wp_get]
  dsimp only
  have hmaxw : maxWindowSize = 2 ^ 31 - 1 := rfl
  rw [if_neg (by omega)]
  apply int32_bind (by omega) (by omega)
  have hmin : min (w.consumedSize + delta) w.recvWindowSize = w.consumedSize + delta :=
    min_eq_left hd
  rw [hmin, wp_ite]
  split_ifs
  · rw [addWindowUpdate, wp_bind, wp_modify]
    apply int32_bind (by omega) (by omega)
    apply int32_bind (by omega) (by omega)
    rw [wp_modify]
    refine ⟨⟨hl, hh, ?_, ?_, ?_, hred, ?_⟩, rfl⟩
    · show 0 ≤ w.consumedSize + delta - (w.consumedSize + delta)
      omega
    · show w.consumedSize + delta - (w.consumedSize + delta) ≤
        w.recvWindowSize - (w.consumedSize + delta)
      omega
    · show w.recvWindowSize - (w.consumedSize + delta) ≤ w.localWindowSize
      omega
    · unfold ConnWindow.credit at hb ⊢
      show w.localWindowSize - (w.recvWindowSize - (w.consumedSize + delta)) =
        65535 + (w.updates ++ [w.consumedSize + delta]).sum - total
      rw [List.sum_append, List.sum_singleton]
      omega
  · rw [wp_modify]
    refine ⟨⟨hl, hh, ?_, hd, hr, hred, hb⟩, rfl⟩
    show 0 ≤ w.consumedSize + delta
    omega

/-- The three outcomes of an adjustment by the local window size `l` itself, with `r` bytes
received: everything was used up; the window grows by what was left; the update is rejected. -/
theorem adjustLocalWindowSize_spec {w : ConnWindow} (hw : WindowOk total w) :
    wp (adjustLocalWindowSize w.localWindowSize)
      (fun delta w' =>
        (delta = some w.localWindowSize ∧
          w' = { w with
            localWindowSize := 2 * w.localWindowSize - w.recvWindowSize, recvWindowSize := 0 } ∧
          2 * w.localWindowSize - w.recvWindowSize ≤ 2 ^ 31 - 1) ∨
        (delta = none ∧ w' = w ∧ 1 ≤ w.credit))
      (fun _ _ => False) w := by
  obtain ⟨hl, hh, hc0, hc, hr, hred, hb⟩ := hw
  have hmax : max 0 w.recvWindowSize = w.recvWindowSize := max_eq_right (by omega)
  rw [adjustLocalWindowSize, wp_bind, wp_get]
  dsimp only
  have hmaxw : maxWindowSize = 2 ^ 31 - 1 := rfl
  rw [hmax]
  rw [if_pos (by omega)]
  apply int32_bind (by omega) (by omega)
  by_cases hnew : w.recvWindowSize - w.localWindowSize ≥ 0
  · -- everything was used up: the received bytes are given back, the window stays
    rw [if_pos hnew, wp_bind, wp_modify]
    refine Or.inl ⟨rfl, ?_, by omega⟩
    have h2 : 2 * w.localWindowSize - w.recvWindowSize = w.localWindowSize := by omega
    have h3 : w.recvWindowSize - w.localWindowSize = 0 := by omega
    rw [h2, h3]
  · rw [if_neg hnew]
    apply int32_bind (by omega) (by omega)
    apply int32_bind (by omega) (by omega)
    by_cases hrej : w.localWindowSize > maxWindowSize - -(w.recvWindowSize - w.localWindowSize)
    · rw [if_pos hrej]
      refine Or.inr ⟨rfl, rfl, ?_⟩
      unfold ConnWindow.credit
      omega
    · have hmin : min w.recvReduction (-(w.recvWindowSize - w.localWindowSize)) = 0 := by
        rw [hred]
        exact min_eq_left (by omega)
      rw [if_neg hrej]
      apply int32_bind (by omega) (by omega)
      rw [hmin]
      apply int32_bind (by omega) (by omega)
      rw [if_neg (by omega), pure_bind, wp_bind, wp_modify]
      apply int32_bind (by omega) (by omega)
      refine Or.inl ⟨by rw [sub_zero], ?_, by omega⟩
      have h2 : w.localWindowSize + -(w.recvWindowSize - w.localWindowSize) =
          2 * w.localWindowSize - w.recvWindowSize := by omega
      rw [h2, sub_zero]

/-- An update for the local window size leaves a positive credit. -/
theorem submitConnWindowUpdate_spec {w : ConnWindow} (hw : WindowOk total w) :
    wp (submitConnWindowUpdate w.localWindowSize)
      (fun _ w' => WindowOk total w' ∧ 1 ≤ w'.credit ∧ w.localWindowSize ≤ w'.localWindowSize)
      (fun _ _ => False) w := by
  have hl := hw.localLow
  simp only [submitConnWindowUpdate]
  rw [if_neg (by omega), wp_bind]
  refine wp_mono (adjustLocalWindowSize_spec hw) ?_ (fun _ _ => id)
  rintro delta w' (⟨rfl, rfl, hfit⟩ | ⟨rfl, rfl, hcredit⟩)
  · obtain ⟨-, hh, hc0, hc, hr, hred, hb⟩ := hw
    dsimp only
    rw [if_pos (by omega)]
    rw [wp_bind, wp_get]
    dsimp only
    apply int32_bind (by omega) (by omega)
    have hmax : max 0 (w.consumedSize - w.localWindowSize) = 0 := max_eq_left (by omega)
    rw [hmax, wp_bind, wp_modify, addWindowUpdate, wp_modify]
    refine ⟨⟨?_, hfit, le_rfl, le_rfl, ?_, hred, ?_⟩, ?_, ?_⟩
    · show 65535 ≤ 2 * w.localWindowSize - w.recvWindowSize
      omega
    · show 0 ≤ 2 * w.localWindowSize - w.recvWindowSize
      omega
    · unfold ConnWindow.credit at hb ⊢
      show 2 * w.localWindowSize - w.recvWindowSize - 0 =
        65535 + (w.updates ++ [w.localWindowSize]).sum - total
      rw [List.sum_append, List.sum_singleton]
      omega
    · unfold ConnWindow.credit
      show 1 ≤ 2 * w.localWindowSize - w.recvWindowSize - 0
      omega
    · show w.localWindowSize ≤ 2 * w.localWindowSize - w.recvWindowSize
      omega
  · exact ⟨hw, hcredit, le_rfl⟩

/-! ### One chunk, and all chunks -/

/-- The chunk goes to an attached relay and is no longer than the credit. -/
def DataChunk.fits (w : ConnWindow) (chunk : DataChunk) : Bool :=
  chunk.isAttached && decide (0 < chunk.len) &&
    decide (((chunk.len + chunk.padlen : ℕ) : ℤ) ≤ w.credit)

/-- After the callback for a chunk, the credit is positive and the window has not shrunk. -/
theorem recvDataChunk_spec {w : ConnWindow} {chunk : DataChunk} (hw : WindowOk total w)
    (hfits : chunk.fits w = true) :
    wp (recvDataChunk chunk)
      (fun _ w' => WindowOk (total + (chunk.len + chunk.padlen : ℕ)) w' ∧ 1 ≤ w'.credit ∧
        w.localWindowSize ≤ w'.localWindowSize)
      (fun _ _ => False) w := by
  simp only [DataChunk.fits, Bool.and_eq_true, decide_eq_true_eq] at hfits
  obtain ⟨⟨hatt, hlen⟩, hle⟩ := hfits
  -- the callback reads the local window size before it does anything
  have hcallback : ∀ total (w1 : ConnWindow), WindowOk total w1 →
      w1.localWindowSize = w.localWindowSize →
      wp (if chunk.len > 0 then relayOnDataChunkRecvWindow chunk.isAttached else pure ())
        (fun _ w' => WindowOk total w' ∧ 1 ≤ w'.credit ∧ w.localWindowSize ≤ w'.localWindowSize)
        (fun _ _ => False) w1 := by
    intro total w1 h1 heq
    have hlow := h1.localLow
    rw [if_pos hlen, relayOnDataChunkRecvWindow, hatt, wp_bind, wp_get]
    dsimp only
    rw [if_neg (by decide), if_pos (by omega), ← heq]
    exact submitConnWindowUpdate_spec h1
  simp only [recvDataChunk]
  rw [if_neg (by omega), wp_bind]
  refine wp_mono (adjustRecvWindowSize_spec hw (by omega) hle) ?_ (fun _ _ => id)
  rintro - w1 ⟨h1, heq1, hcons⟩
  by_cases hpad : chunk.padlen > 0
  · rw [if_pos hpad, wp_bind]
    refine wp_mono (updateConsumedSize_spec h1 (by omega) ?_) ?_ (fun _ _ => id)
    · push_cast at hcons
      omega
    · rintro - w2 ⟨h2, heq2⟩
      exact hcallback _ w2 h2 (heq2.trans heq1)
  · rw [if_neg hpad]
    exact hcallback _ w1 h1 heq1

/-- **The credit of the connection.**  In every run of chunks that are delivered to attached relays
and are no longer than the credit, no `int32_t` computation overflows and no chunk is refused; after
every chunk the credit lies between `1` and `2^31 - 1` and is `65535` plus the increments of all
`WINDOW_UPDATE` frames minus the bytes of all chunks of the run; and the next chunk does not make the
local window smaller. -/
theorem wp_run_credit (chunks : List DataChunk)
    (h : Meets recvDataChunk (fun w chunk => chunk.fits w = true) chunks .init) :
    wp (run recvDataChunk chunks)
      (fun _ w =>
        (1 ≤ w.credit ∧ w.credit ≤ 2 ^ 31 - 1) ∧
        w.credit = 65535 + w.updates.sum - receivedBytes chunks ∧
        ∀ chunk : DataChunk, chunk.fits w = true →
          wp (recvDataChunk chunk) (fun _ w' => w.localWindowSize ≤ w'.localWindowSize)
            (fun _ _ => False) w)
      (fun _ _ => False) .init := by
  have hrun : wp (run recvDataChunk chunks) (fun _ w => WindowOk (receivedBytes chunks) w ∧ 1 ≤ w.credit)
      (fun _ _ => False) .init := by
    have hstart : WindowOk (receivedBytes []) .init ∧ 1 ≤ ConnWindow.init.credit :=
      ⟨windowOk_init, by decide⟩
    refine run_inputs_wp (I := fun done w => WindowOk (receivedBytes done) w ∧ 1 ≤ w.credit)
      (fun done w chunk hI hG => ?_) chunks [] _ hstart h
    rw [receivedBytes_concat]
    exact wp_mono (recvDataChunk_spec hI.1 hG) (fun _ w' h' => ⟨h'.1, h'.2.1⟩) (fun _ _ => id)
  refine wp_mono hrun ?_ (fun _ _ => id)
  rintro - w ⟨hw, hcredit⟩
  refine ⟨⟨hcredit, ?_⟩, hw.balance, fun chunk hfits => ?_⟩
  · have hhigh := hw.localHigh
    have hc0 := hw.consumedLow
    have hc := hw.consumedHigh
    unfold ConnWindow.credit
    omega
  · exact wp_mono (recvDataChunk_spec hw hfits) (fun _ _ h => h.2.2) (fun _ _ => id)

/-- A chunk that uses up the credit, one that leaves some of it, and one with padding. -/
theorem wp_run_credit_three :
    Meets recvDataChunk (fun w chunk => chunk.fits w = true)
      [⟨65535, 0, true⟩, ⟨16384, 0, true⟩, ⟨1, 99, true⟩] .init ∧
    wp (run recvDataChunk [⟨65535, 0, true⟩, ⟨16384, 0, true⟩, ⟨1, 99, true⟩])
      (fun _ w =>
        (1 ≤ w.credit ∧ w.credit ≤ 2 ^ 31 - 1) ∧
        w.credit = 65535 + w.updates.sum - 82019 ∧
        ∀ chunk : DataChunk, chunk.fits w = true →
          wp (recvDataChunk chunk) (fun _ w' => w.localWindowSize ≤ w'.localWindowSize)
            (fun _ _ => False) w)
      (fun _ _ => False) .init :=
  ⟨by decide +kernel, wp_run_credit _ (by decide +kernel)⟩

end H2ClientProxy
