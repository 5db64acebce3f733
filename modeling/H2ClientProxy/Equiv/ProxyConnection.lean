import H2ClientProxy.Equiv.Delivery
import H2ClientProxy.Equiv.Chunked

/-!
# The `proxy-connection` field of a response

`relay_check_length_info` tells the client by a `proxy-connection` field whether its connection will be
kept, and decides that by the status: below 500 it says `keep-alive`.
`client_handle_relay_msg_complete` decides by the length fields: without one of them it closes the
connection.  Up to status 400 the former adds a length field where there is none.

* `keepsClient_checked`: when the connection is kept after a response, in terms of the response as it
  was received;
* `saysRight_iff`: the two decisions agree iff `lengthAgrees`.
-/

namespace H2ClientProxy

open Wp Machine

variable {w : World}

/-! ### Fields that are added -/

/-- A field is found where it was added, unless there was one of that name before. -/
theorem headerValue_addPair (h : Header) (field value name : Bytes) :
    headerValue (headerAddPair h field value) name =
      (headerValue h name).or (if strcasecmp field name then some value else none) := by
  unfold headerValue headerAddPair
  rw [List.find?_append, Option.map_or, List.find?_singleton]
  congr 1
  split_ifs <;> rfl

/-- Names are compared without regard to case. -/
theorem headerValue_congr (h : Header) {name name' : Bytes}
    (he : name.map tolower = name'.map tolower) : headerValue h name = headerValue h name' := by
  have hcmp : ∀ f : Field, strcasecmp f.field name = strcasecmp f.field name' := by
    intro f
    unfold strcasecmp
    rw [he]
  unfold headerValue
  simp only [hcmp]

/-- The response has a length field. -/
def hasLength (h : Header) : Bool :=
  (headerValue h (bytes "content-length")).isSome ||
    (headerValue h (bytes "Transfer-Encoding")).isSome

/-- The connection is kept after a response with a length field. -/
theorem keepsClient_eq_hasLength (h : Header) : keepsClient h = hasLength h := by
  unfold keepsClient hasLength
  rw [headerValue_congr h (show (bytes "Content-Length").map tolower =
    (bytes "content-length").map tolower by decide), Bool.or_comm]

theorem hasLength_addPair (h : Header) (field value : Bytes) :
    hasLength (headerAddPair h field value) = (hasLength h ||
      (strcasecmp field (bytes "content-length") || strcasecmp field (bytes "Transfer-Encoding"))) := by
  unfold hasLength
  rw [headerValue_addPair, headerValue_addPair, Option.isSome_or, Option.isSome_or]
  cases strcasecmp field (bytes "content-length") <;>
    cases strcasecmp field (bytes "Transfer-Encoding") <;>
    cases headerValue h (bytes "content-length") <;>
    cases headerValue h (bytes "Transfer-Encoding") <;> rfl

/-! ### The header after the check -/

/-- What `relay_check_length_info` lets `proxy-connection` say. -/
def saidOf (status : ℤ) : Bytes := if status < 500 then bytes "keep-alive" else bytes "close"

variable {rel : Relay}

/-- The header with the fields that are added to it. -/
theorem relayCheckLengthInfo_eq
    (hno : headerValue rel.responseHeader (bytes "proxy-connection") = none) :
    (relayCheckLengthInfo rel).responseHeader =
      let hdr := headerAddPair rel.responseHeader (bytes "proxy-connection")
        (saidOf rel.responseHeader.statusCode)
      if 400 < rel.responseHeader.statusCode ∨ hasLength rel.responseHeader then hdr
      else headerAddPair hdr (bytes "Transfer-Encoding") (bytes "chunked") := by
  have hlen : ((headerValue rel.responseHeader (bytes "content-length")).isNone &&
      (headerValue rel.responseHeader (bytes "Transfer-Encoding")).isNone) =
        !hasLength rel.responseHeader := by
    unfold hasLength
    rw [Bool.not_or, Option.not_isSome, Option.not_isSome]
  unfold relayCheckLengthInfo
  dsimp only
  rw [hno, if_neg (show ¬ (none : Option Bytes).isSome = true by decide), hlen]
  show Relay.responseHeader (if 400 < _ then _ else _) = _
  by_cases hstatus : 400 < rel.responseHeader.statusCode
  · rw [if_pos hstatus, if_pos (Or.inl hstatus)]
    rfl
  · rw [if_neg hstatus]
    by_cases hl : hasLength rel.responseHeader = true
    · rw [if_neg (by rw [hl]; decide), if_pos (Or.inr hl)]
      rfl
    · have hneither : ¬ (400 < rel.responseHeader.statusCode ∨ hasLength rel.responseHeader = true) :=
        fun h => h.elim hstatus hl
      rw [if_pos (by rw [Bool.eq_false_of_not_eq_true hl]; decide), if_neg hneither]
      rfl

/-- `proxy-connection` says what the status decides. -/
theorem relayCheckLengthInfo_said
    (hno : headerValue rel.responseHeader (bytes "proxy-connection") = none) :
    headerValue (relayCheckLengthInfo rel).responseHeader (bytes "proxy-connection") =
      some (saidOf rel.responseHeader.statusCode) := by
  have hadd : headerValue (headerAddPair rel.responseHeader (bytes "proxy-connection")
      (saidOf rel.responseHeader.statusCode)) (bytes "proxy-connection") =
      some (saidOf rel.responseHeader.statusCode) := by
    rw [headerValue_addPair, hno, Option.none_or, if_pos (by decide)]
  rw [relayCheckLengthInfo_eq hno]
  dsimp only
  split_ifs
  · exact hadd
  · rw [headerValue_addPair, hadd, Option.some_or]

/-- The connection is kept after a response with a length field, and after any up to status 400. -/
theorem keepsClient_checked
    (hno : headerValue rel.responseHeader (bytes "proxy-connection") = none) :
    keepsClient (relayCheckLengthInfo rel).responseHeader =
      (decide (rel.responseHeader.statusCode ≤ 400) || hasLength rel.responseHeader) := by
  have hproxy : hasLength (headerAddPair rel.responseHeader (bytes "proxy-connection")
      (saidOf rel.responseHeader.statusCode)) = hasLength rel.responseHeader := by
    rw [hasLength_addPair]
    exact Bool.or_false _
  rw [keepsClient_eq_hasLength, relayCheckLengthInfo_eq hno]
  dsimp only
  split_ifs with h
  · rw [hproxy]
    rcases h with h | h
    · rw [decide_eq_false (not_le.mpr h), Bool.false_or]
    · rw [h, Bool.or_true]
  · rw [not_or, not_lt] at h
    rw [hasLength_addPair, decide_eq_true h.1, Bool.true_or]
    exact Bool.or_true _

/-! ### The end of the response -/

/-- The client is dropped at the end of a response without a length field. -/
theorem clientHandleRelayMsgComplete_keeps {c : ClientId} (h : answering w c = some rel) :
    wp (clientHandleRelayMsgComplete c)
      (fun _ w' => (w'.clients c).isSome = keepsClient rel.responseHeader)
      (fun e _ => e = .nullHeader) w := by
  obtain ⟨cl, r, hc, hsys, hr, hrel⟩ := answering_eq_some h
  have hend : ∀ w1 cl1, w1.clients c = some cl1 →
      wp (do
          let cl ← getClient c
          putClient c { cl with relay := none }
          if (headerValue rel.responseHeader (bytes "Transfer-Encoding")).isNone
              && (headerValue rel.responseHeader (bytes "Content-Length")).isNone then clientDrop c
          else nextRequest c)
        (fun _ w' => (w'.clients c).isSome = keepsClient rel.responseHeader)
        (fun e _ => e = .nullHeader) w1 := by
    intro w1 cl1 hc1
    refine wp_mono (leaveRelay_spec rel.responseHeader hc1) ?_ fun _ _ he => he.2
    rintro _ w' (⟨hk, rfl⟩ | ⟨hk, hn⟩)
    · rw [hk, World.setClient_clients, Function.update_self]
      rfl
    · rw [hk]
      cases hn with
      | idle _ _ =>
        rw [World.setClient_clients, Function.update_self]
        rfl
      | next _ _ =>
        rw [World.setClient_clients, Function.update_self]
        rfl
  simp only [clientHandleRelayMsgComplete, wp_bind, wp_getClient, hc, wp_clientRelay, hsys, hr,
    relayGetHeader, wp_getRelay, hrel, wp_pure, if_true]
  by_cases hch : isChunked rel.responseHeader = true
  · have h1 := hend _ _ (written_wroteTo hc lastChunk).clients_self
    simp only [hch, if_true, wp_bind, wp_clientWrite, hc] at h1 ⊢
    exact h1
  · have h1 := hend w cl hc
    simp only [hch, Bool.false_eq_true, if_false, wp_bind] at h1 ⊢
    exact h1

/-! ### What is said and what is done -/

/-- The `proxy-connection` field of `h` says `close` exactly if the client `c` is gone, and
`keep-alive` exactly if it is still there. -/
def SaysRight (h : Header) (w : World) (c : ClientId) : Prop :=
  (headerValue h (bytes "proxy-connection") = some (bytes "close") ↔ w.clients c = none) ∧
    (headerValue h (bytes "proxy-connection") = some (bytes "keep-alive") ↔ w.clients c ≠ none)

instance (h : Header) (w : World) (c : ClientId) : Decidable (SaysRight h w c) :=
  inferInstanceAs (Decidable ((_ ↔ w.clients c = none) ∧ (_ ↔ w.clients c ≠ none)))

/-- Exactly below status 500 the response has a length field or a status up to 400. -/
def lengthAgrees (h : Header) : Bool :=
  decide (h.statusCode < 500) == (decide (h.statusCode ≤ 400) || hasLength h)

/-- **The field says what happens iff the length agrees with the status.**  The relay `rel0` holds the
response as it was received; its header is checked, and later, in any world, the response of the
client `c` is complete. -/
theorem saysRight_iff {rel0 : Relay} {c : ClientId}
    (hno : headerValue rel0.responseHeader (bytes "proxy-connection") = none)
    (ha : answering w c = some rel)
    (hh : rel.responseHeader = (relayCheckLengthInfo rel0).responseHeader) :
    wp (clientHandleRelayMsgComplete c)
      (fun _ w' => SaysRight rel.responseHeader w' c ↔ lengthAgrees rel0.responseHeader = true)
      (fun e _ => e = .nullHeader) w := by
  refine wp_mono (clientHandleRelayMsgComplete_keeps ha) (fun _ w' hkeeps => ?_) fun _ _ => id
  rw [hh, keepsClient_checked hno] at hkeeps
  have hne : bytes "close" ≠ bytes "keep-alive" := by decide
  unfold SaysRight lengthAgrees
  rw [hh, relayCheckLengthInfo_said hno, ← hkeeps, Option.some_inj, Option.some_inj, saidOf,
    beq_iff_eq]
  by_cases hs : rel0.responseHeader.statusCode < 500
  · rw [if_pos hs, decide_eq_true hs]
    cases hc : w'.clients c with
    | none => simp [hne.symm]
    | some cl => simp [hne.symm]
  · rw [if_neg hs, decide_eq_false hs]
    cases hc : w'.clients c with
    | none => simp [hne]
    | some cl => simp [hne]

/-- The proxy after it has forwarded a request and received the head of a response with this status
and without further fields; a body will follow. -/
def answeredGet (status : Bytes) : World :=
  finalState (run step (inputs (opening ++ getRequest 0 ++
    [.timer 0, .recvHeader 1 .response (bytes ":status") status, .recvFrame 1 (.headers 4)])) World.init)

/-- The relay that has received a head with this status and without fields. -/
def statusOnly (status : ℤ) : Relay :=
  { session := true, args := 0, responseHeader := { statusCode := status } }

theorem answering_answeredGet (status : Bytes) (code : ℤ)
    (h : (answering (answeredGet status) 0).any (fun rel =>
      rel.responseHeader = (relayCheckLengthInfo (statusOnly code)).responseHeader) = true) :
    ∃ rel, answering (answeredGet status) 0 = some rel ∧
      rel.responseHeader = (relayCheckLengthInfo (statusOnly code)).responseHeader := by
  obtain ⟨rel, ha, hrel⟩ := (Option.any_eq_true _ _).mp h
  exact ⟨rel, ha, of_decide_eq_true hrel⟩

/-- For a response with status 200 the field is right. -/
theorem saysRight_iff_ok :
    ∃ rel, answering (answeredGet (bytes "200")) 0 = some rel ∧
      wp (clientHandleRelayMsgComplete 0)
        (fun _ w' => SaysRight rel.responseHeader w' 0 ↔
          lengthAgrees (statusOnly 200).responseHeader = true)
        (fun e _ => e = .nullHeader) (answeredGet (bytes "200")) := by
  obtain ⟨rel, ha, hrel⟩ := answering_answeredGet (bytes "200") 200 (by decide +kernel)
  exact ⟨rel, ha, saysRight_iff (by decide) ha hrel⟩

/-- In general it is not: after a response with status 404 and without a length field the client has
been told `keep-alive`, and its connection is closed. -/
theorem not_saysRight : ¬ ∀ (rel0 rel : Relay) (w : World) (c : ClientId),
    headerValue rel0.responseHeader (bytes "proxy-connection") = none → answering w c = some rel →
    rel.responseHeader = (relayCheckLengthInfo rel0).responseHeader →
    wp (clientHandleRelayMsgComplete c) (fun _ w' => SaysRight rel.responseHeader w' c)
      (fun e _ => e = .nullHeader) w := by
  intro hall
  obtain ⟨rel, ha, hrel⟩ := answering_answeredGet (bytes "404") 404 (by decide +kernel)
  have h := hall (statusOnly 404) rel _ 0 (by decide) ha hrel
  have hnot : ¬ wp (clientHandleRelayMsgComplete 0)
      (fun _ w' => SaysRight (relayCheckLengthInfo (statusOnly 404)).responseHeader w' 0)
      (fun _ _ => True) (answeredGet (bytes "404")) := by
    decide +kernel
  refine hnot (wp_mono h (fun _ w' hs => ?_) fun _ _ _ => trivial)
  rw [← hrel]
  exact hs

end H2ClientProxy
