import H2ClientProxy.Lib.Chunked
import H2ClientProxy.Equiv.Client

/-!
# A chunked response is a well-formed chunked body

For a response with `Transfer-Encoding: chunked`, `client_handle_relay_body` writes the size line of
each chunk, the chunk and a line end, and `client_handle_relay_msg_complete` writes the last chunk.

* `isSizeLine_chunkSizeLine`: what `snprintf("%X\r\n", n)` prints is read back as `n`.
* `passed c x w`: the bytes that `x` passes to `client_write` for the client `c` in the world `w`.
* `decode_passed`: the bytes passed by the two handlers are decoded into the chunks.  The handlers run
  in arbitrary worlds, so anything may happen between two of them.
-/

namespace H2ClientProxy

open Wp

variable {w w' : World}

/-! ### The size line -/

/-- The digits of `%X`. -/
theorem hexVal_digitChar : ∀ d < 16,
    Chunked.hexVal (Nat.digitChar d).toUpper.toNat.toUInt8 = some d := by
  decide

/-- The characters that `%X` prints for `n`. -/
def hexText (n : ℕ) : Bytes := (Nat.toDigits 16 n).map fun c => c.toUpper.toNat.toUInt8

theorem hexText_of_lt {n : ℕ} (h : n < 16) :
    hexText n = [(Nat.digitChar n).toUpper.toNat.toUInt8] := by
  rw [hexText, Nat.toDigits_of_lt_base h]
  rfl

theorem hexText_of_le {n : ℕ} (h : 16 ≤ n) :
    hexText n = hexText (n / 16) ++ [(Nat.digitChar (n % 16)).toUpper.toNat.toUInt8] := by
  rw [hexText, Nat.toDigits_of_base_le (by decide) h, List.map_append]
  rfl

/-- Digits are read up to the first byte that is none. -/
theorem readDigits_hexText (n acc : ℕ) (rest : Bytes) :
    Chunked.readDigits acc (hexText n ++ rest) =
      Chunked.readDigits (acc * 16 ^ (hexText n).length + n) rest := by
  induction n using Nat.strongRecOn generalizing rest with
  | ind n ih =>
    by_cases hn : n < 16
    · rw [hexText_of_lt hn, List.singleton_append, Chunked.readDigits, hexVal_digitChar n hn]
      simp only [List.length_singleton, pow_one]
    · have hmod : n % 16 < 16 := Nat.mod_lt _ (by decide)
      rw [hexText_of_le (not_lt.mp hn), List.append_assoc, ih (n / 16) (by omega),
        List.singleton_append, Chunked.readDigits, hexVal_digitChar _ hmod]
      dsimp only
      rw [List.length_append, List.length_singleton, pow_succ]
      have hval : (acc * 16 ^ (hexText (n / 16)).length + n / 16) * 16 + n % 16 =
          acc * (16 ^ (hexText (n / 16)).length * 16) + n := by
        rw [Nat.add_mul, Nat.mul_assoc]
        omega
      rw [hval]

/-- `%X` prints at least one character, and the first one is a digit. -/
theorem hexText_head (n : ℕ) (rest : Bytes) :
    (hexText n ++ rest).head?.any (fun c => (Chunked.hexVal c).isSome) = true := by
  induction n using Nat.strongRecOn generalizing rest with
  | ind n ih =>
    by_cases hn : n < 16
    · rw [hexText_of_lt hn, List.singleton_append, List.head?_cons, Option.any_some,
        hexVal_digitChar n hn, Option.isSome_some]
    · rw [hexText_of_le (not_lt.mp hn), List.append_assoc]
      exact ih (n / 16) (by omega) _

/-- A receiver reads the size that the proxy printed. -/
theorem isSizeLine_chunkSizeLine : Chunked.IsSizeLine chunkSizeLine := by
  intro n rest
  have hline : chunkSizeLine n ++ rest = hexText n ++ 13 :: 10 :: rest := by
    rw [chunkSizeLine, List.append_assoc]
    rfl
  rw [hline, Chunked.readSize, if_pos (hexText_head n _), readDigits_hexText, Nat.zero_mul, Nat.zero_add]
  rfl

/-! ### What the handlers write -/

theorem writeClient_written (cl : Client) (sends : List SendResult) (data : Bytes) :
    (writeClient cl sends data).client.written = cl.written ++ data := by
  unfold writeClient
  dsimp only
  split_ifs
  · split
    · split_ifs <;> rfl
    · split_ifs <;> rfl
  · rfl

/-- The relay that the callbacks of the client `c` ask for the response. -/
def answering (w : World) (c : ClientId) : Option Relay :=
  (w.clients c).bind fun cl => if cl.relaySys then cl.relay.bind w.relays else none

/-- All bytes passed to `client_write` for `c`. -/
def writtenTo (w : World) (c : ClientId) : Bytes := ((w.clients c).map Client.written).getD []

/-- The bytes that `x` passes to `client_write` for `c`. -/
def passed (c : ClientId) (x : SysM Unit) (w : World) : Bytes :=
  (writtenTo (finalState (x w)) c).drop (writtenTo w c).length

theorem passed_eq {c : ClientId} {x : SysM Unit} {data : Bytes}
    (h : wp x (fun _ w' => writtenTo w' c = writtenTo w c ++ data)
      (fun _ w' => writtenTo w' c = writtenTo w c ++ data) w) :
    passed c x w = data := by
  rw [passed, finalState_of_wp h, List.drop_left]

theorem answering_eq_some {c : ClientId} {rel : Relay} (h : answering w c = some rel) :
    ∃ cl r, w.clients c = some cl ∧ cl.relaySys = true ∧ cl.relay = some r ∧
      w.relays r = some rel := by
  obtain ⟨cl, hc, h⟩ := Option.bind_eq_some_iff.mp h
  split_ifs at h with hsys
  obtain ⟨r, hr, hrel⟩ := Option.bind_eq_some_iff.mp h
  exact ⟨cl, r, hc, hsys, hr, hrel⟩

/-- The world after a call of `client_write`, whatever `send()` answered. -/
theorem writtenTo_wroteTo {c : ClientId} {cl : Client} (hc : w.clients c = some cl) (data : Bytes) :
    writtenTo (wroteTo w c cl data) c = writtenTo w c ++ data := by
  rw [writtenTo, (written_wroteTo hc data).clients_self, writtenTo, hc]
  exact writeClient_written cl w.sends data

/-- For a chunked response, `client_handle_relay_body` passes the chunk on in its coding. -/
theorem clientHandleRelayBody_passes {c : ClientId} {rel : Relay} (h : answering w c = some rel)
    (hch : isChunked rel.responseHeader = true) :
    passed c (clientHandleRelayBody c) w = Chunked.chunk chunkSizeLine rel.bodyData := by
  obtain ⟨cl, r, hc, hsys, hr, hrel⟩ := answering_eq_some h
  apply passed_eq
  have h1 := written_wroteTo hc (chunkSizeLine rel.bodyData.length)
  have h2 := h1.trans (written_wroteTo h1.clients_self rel.bodyData)
  have h3 := h2.trans (written_wroteTo h2.clients_self crlf)
  -- the writes, one after the other
  have hwritten := writtenTo_wroteTo h2.clients_self crlf
  rw [writtenTo_wroteTo h1.clients_self, writtenTo_wroteTo hc, List.append_assoc,
    List.append_assoc, ← List.append_assoc (chunkSizeLine _)] at hwritten
  have hr3 : _ = some r := h3.ctl.relay.trans hr
  have hsys3 : _ = true := h3.ctl.relaySys.trans hsys
  simp only [clientHandleRelayBody, wp_bind, wp_getClient, hc, wp_clientRelay, hsys, hr,
    relayGetHeader, relayGetBody, wp_getRelay, hrel, wp_pure, if_true, hch, wp_clientWrite,
    h1.clients_self, h2.clients_self, h3.clients_self, wp_ite, hr3, hsys3, relaySuspendRead,
    writeRelay, wp_get, h3.relays, wp_putRelay]
  split_ifs
  · exact hwritten
  · exact hwritten

theorem writtenTo_setClient (w : World) (c : ClientId) (cl : Client) :
    writtenTo (w.setClient c (some cl)) c = cl.written := by
  rw [writtenTo, World.setClient_clients, Function.update_self]
  rfl

/-- Going on with the next request writes nothing. -/
theorem nextRequest_writes_nothing (w : World) (c : ClientId) (cl : Client) :
    wp (nextRequest c) (fun _ w' => writtenTo w' c = cl.written)
      (fun _ w' => writtenTo w' c = cl.written) (w.setClient c (some cl)) := by
  simp only [nextRequest, wp_bind, wp_getClient, World.setClient_clients, Function.update_self]
  cases cl.pendingRequestHeader with
  | none =>
    rw [wp_putClient]
    exact writtenTo_setClient _ c _
  | some h =>
    simp only [createRelay, wp_bind, wp_ite, wp_throw, relayCreate, wp_get, wp_modify, wp_pure,
      wp_note, wp_putClient]
    split_ifs
    · exact writtenTo_setClient w c cl
    · exact writtenTo_setClient _ c _

/-- For a chunked response, `client_handle_relay_msg_complete` passes on the last chunk and nothing
else.  The client is kept, and what follows (the relay of a pending request) writes nothing. -/
theorem clientHandleRelayMsgComplete_passes {c : ClientId} {rel : Relay}
    (h : answering w c = some rel) (hch : isChunked rel.responseHeader = true) :
    passed c (clientHandleRelayMsgComplete c) w = lastChunk := by
  obtain ⟨cl, r, hc, hsys, hr, hrel⟩ := answering_eq_some h
  apply passed_eq
  unfold lastChunk
  have h1 := written_wroteTo hc (bytes "0" ++ crlf ++ crlf)
  have hwritten := writtenTo_wroteTo hc (bytes "0" ++ crlf ++ crlf)
  have hte : (headerValue rel.responseHeader (bytes "Transfer-Encoding")).isNone = false := by
    unfold isChunked at hch
    split at hch
    · rename_i te hte
      rw [hte]
      rfl
    · exact absurd hch Bool.false_ne_true
  simp only [clientHandleRelayMsgComplete, wp_bind, wp_getClient, hc, wp_clientRelay, hsys, hr,
    relayGetHeader, wp_getRelay, hrel, wp_pure, if_true, hch, wp_clientWrite, hte, Bool.false_and,
    Bool.false_eq_true, if_false, h1.clients_self, wp_putClient]
  rw [← hwritten, writtenTo, h1.clients_self]
  exact nextRequest_writes_nothing _ c _

/-! ### The body as a whole -/

/-- **The chunked body.**  Let `client_handle_relay_body` run for the client `c` in each of the worlds
`ws`, where its relay has the chunks `chunks` of a chunked response, and then
`client_handle_relay_msg_complete` in the world `w`.  What they pass to `client_write` is a chunked
body, it ends with its only last chunk, and it is decoded into the chunks, whatever their bytes are. -/
theorem decode_passed (c : ClientId) {chunks : List Bytes} {ws : List World} {w : World}
    {rel : Relay} (hne : ∀ data ∈ chunks, data ≠ [])
    (hws : List.Forall₂ (fun data w => ∃ rel, answering w c = some rel ∧
      isChunked rel.responseHeader = true ∧ rel.bodyData = data) chunks ws)
    (hw : answering w c = some rel) (hch : isChunked rel.responseHeader = true) :
    Chunked.decode (ws.flatMap (passed c (clientHandleRelayBody c)) ++
      passed c (clientHandleRelayMsgComplete c) w) = some (chunks, []) := by
  have hbody : ws.flatMap (passed c (clientHandleRelayBody c)) =
      chunks.flatMap (Chunked.chunk chunkSizeLine) := by
    clear hne
    induction hws with
    | nil => rfl
    | cons h _ ih =>
      obtain ⟨rel, hans, hch, rfl⟩ := h
      rw [List.flatMap_cons, List.flatMap_cons, ih, clientHandleRelayBody_passes hans hch]
  have hlast : lastChunk = chunkSizeLine 0 ++ [13, 10] := by decide
  rw [hbody, clientHandleRelayMsgComplete_passes hw hch, hlast, ← List.append_assoc]
  exact Chunked.decode_flatMap isSizeLine_chunkSizeLine hne

/-- A client whose relay has received the chunk `body` of a chunked response. -/
def chunkedAnswer (body : Bytes) : World :=
  let hdr : Header := { listHeaders := [⟨bytes "Transfer-Encoding", bytes "chunked"⟩] }
  let w : World := {}
  (w.setClient 0 (some { file := epFileCreate, relaySys := true, relay := some 0 })).setRelay 0
    { session := true, args := 0, responseHeader := hdr, bodyData := body }

/-- The first chunk looks like a last chunk itself. -/
theorem decode_passed_lookalike :
    Chunked.decode
      ([chunkedAnswer lastChunk, chunkedAnswer (bytes "a")].flatMap
          (passed 0 (clientHandleRelayBody 0)) ++
        passed 0 (clientHandleRelayMsgComplete 0) (chunkedAnswer (bytes "a"))) =
      some ([lastChunk, bytes "a"], []) :=
  decode_passed 0 (by decide)
    (.cons ⟨_, rfl, by decide, rfl⟩ (.cons ⟨_, rfl, by decide, rfl⟩ .nil)) rfl (by decide)

end H2ClientProxy
