import H2ClientProxy.Equiv.Delivery
import H2ClientProxy.Equiv.Chunked

/-!
# The head of a response

nghttp2 reports the final `HEADERS` field by field to `relay_on_header_callback`, and when the block
is complete `client_handle_relay_hdr_complete` prints it.  The head passes through arrays on its way:
each name and value through one of 1024 and 4096 bytes, the whole through one of `50 * 4096`; and the
status is looked up in a table that does not have every status.

* `responseHead_eq`: the bounded appends print the text of the head iff that fits;
* `getStatusString_status`: what the table has for a status begins with its digits;
* `headPassed_iff`: the head that the client is given is the one that was received iff it fits
  everywhere (`HeadFits`).
-/

namespace H2ClientProxy

open Wp Machine

variable {w : World} {r : RelayId} {rel : Relay} {cl : Client} {req h : Header}

/-! ### The program -/

/-- The first part of the `NGHTTP2_HEADERS` branch of `relay_session_on_frame_recv_callback`, when the
block is complete: the header is checked and announced. -/
def headComplete (cb : RelayEventcb) (r : RelayId) (flags : Flags) : SysM Unit := do
  if !isEndStream flags then
    let rel ← getRelay r
    match rel.requestHeader with
    | none => throw .nullHeader
    | some h =>
      if !strcasecmp h.method (bytes "connect") then putRelay r (relayCheckLengthInfo rel)
      else pure ()
  else pure ()
  relayOnResponseHeaderComplete cb r

/-- The branch is this part, and the end of the response when the frame brings it. -/
theorem relayOnHeadersFrame_eq (cb : RelayEventcb) (r : RelayId) {flags : Flags}
    (hf : isEndHeaders flags = true) :
    relayOnHeadersFrame cb r flags = (do
      headComplete cb r flags
      if isEndStream flags then relayOnMessageComplete cb r else pure ()) := by
  unfold relayOnHeadersFrame headComplete
  rw [if_pos hf]
  cases isEndStream flags with
  | true => rfl
  | false =>
    simp only [Bool.not_false, Bool.false_eq_true, if_false, if_true, bind_assoc]
    congr 1
    funext rel
    cases rel.requestHeader with
    | none => rfl
    | some h =>
      dsimp only
      split_ifs <;> rfl

/-- The fields of a final `HEADERS` block are reported to the relay `r`, and the block is complete. -/
def processHead (r : RelayId) (flags : Flags) (fields : List (Bytes × Bytes)) : SysM Unit := do
  run (fun p => relayOnHeader (some r) .response p.1 p.2) fields
  headComplete clientRelayCb r flags

/-! ### Printing -/

/-- The line of a field. -/
def fieldLine (f : Field) : Bytes := f.field ++ bytes ": " ++ f.value ++ crlf

/-- The text of a head. -/
def headText (hdr : Header) : Bytes :=
  bytes "HTTP/1.1 " ++ getStatusString hdr.statusCode false ++ crlf ++
    hdr.listHeaders.flatMap fieldLine ++ crlf

/-- The field fits the arrays of `relay_on_header_callback`. -/
def fitsArrays (f : Field) : Prop := f.field.length < 1024 ∧ f.value.length < 4096

/-- A text that is shorter than `tmp_buf` is appended if there is room for it. -/
theorem appendFormat_eq {buf text : Bytes} (htext : text.length < 4096 * 20 - 1) :
    appendFormat buf (50 * 4096) text =
      if (buf ++ text).length < 50 * 4096 then some (buf ++ text) else none := by
  unfold appendFormat
  rw [List.take_of_length_le (le_of_lt htext), List.take_of_length_le (by omega)]

theorem fieldLine_length {f : Field} (hf : fitsArrays f) : (fieldLine f).length < 4096 * 20 - 1 := by
  have hsep : (bytes ": ").length = 2 := by decide
  have hcrlf : crlf.length = 2 := rfl
  obtain ⟨h1, h2⟩ := hf
  rw [fieldLine, List.length_append, List.length_append, List.length_append, hsep, hcrlf]
  omega

/-- The lines of the fields are appended if there is room for all of them. -/
theorem appendFields_eq {fields : List Field} {buf : Bytes} (hbuf : buf.length < 50 * 4096)
    (hf : ∀ f ∈ fields, fitsArrays f) :
    appendFields fields buf =
      if (buf ++ fields.flatMap fieldLine).length < 50 * 4096
      then some (buf ++ fields.flatMap fieldLine) else none := by
  induction fields generalizing buf with
  | nil =>
    rw [List.flatMap_nil, List.append_nil, if_pos hbuf]
    rfl
  | cons f fields ih =>
    have hstep : appendFields (f :: fields) buf =
        (appendFormat buf (50 * 4096) (fieldLine f)).bind (appendFields fields) := rfl
    rw [hstep, appendFormat_eq (fieldLine_length (hf f List.mem_cons_self)), List.flatMap_cons,
      ← List.append_assoc]
    by_cases hroom : (buf ++ fieldLine f).length < 50 * 4096
    · rw [if_pos hroom, Option.bind_some]
      exact ih hroom fun x hx => hf x (List.mem_cons_of_mem f hx)
    · -- what does not fit now does not fit with more behind it
      have hlater : ¬ (buf ++ fieldLine f ++ fields.flatMap fieldLine).length < 50 * 4096 := by
        rw [List.length_append]
        omega
      rw [if_neg hroom, if_neg hlater, Option.bind_none]

/-- **The head is printed iff its text fits the buffer.** -/
theorem responseHead_eq {hdr : Header} (hf : ∀ f ∈ hdr.listHeaders, fitsArrays f)
    (hstatus : (getStatusString hdr.statusCode false).length ≤ 100) :
    responseHead hdr =
      if (headText hdr).length < 50 * 4096 then some (headText hdr) else none := by
  have hhttp : (bytes "HTTP/1.1 ").length = 9 := by decide
  have hcrlf : crlf.length = 2 := rfl
  have hline : (bytes "HTTP/1.1 " ++ getStatusString hdr.statusCode false ++ crlf).length ≤ 111 := by
    rw [List.length_append, List.length_append, hhttp, hcrlf]
    omega
  unfold responseHead headText
  rw [Option.bind_eq_bind, appendFormat_eq (by omega), List.nil_append, if_pos (by omega),
    Option.bind_some, appendFields_eq (by omega) hf]
  generalize bytes "HTTP/1.1 " ++ getStatusString hdr.statusCode false ++ crlf ++
    hdr.listHeaders.flatMap fieldLine = text
  have hlen : (text ++ crlf).length = text.length + 2 := List.length_append
  rw [hlen]
  by_cases htext : text.length + 2 < 50 * 4096
  · rw [if_pos (show text.length < 50 * 4096 by omega), Option.bind_some]
  · rw [if_neg htext]
    split_ifs
    · rw [Option.bind_some, if_neg htext]
    · rfl

/-! ### The status -/

/-- The three digits of a number. -/
def threeDigits (n : ℕ) : Bytes :=
  [(48 + n / 100).toUInt8, (48 + n / 10 % 10).toUInt8, (48 + n % 10).toUInt8]

/-- The statuses of the table. -/
def knownStatuses : List ℕ :=
  [100, 101, 200, 201, 202, 203, 204, 205, 206, 300, 301, 302, 303, 304, 305, 306, 307, 400, 401,
    402, 403, 404, 405, 406, 407, 408, 409, 410, 411, 412, 413, 414, 415, 416, 417, 425, 500,
    501, 502, 503, 504, 505]

/-- What the table has for `n`: its digits, a blank and a phrase without a line end. -/
def tableOk (n : ℕ) : Bool :=
  (getStatusString n false).take 4 == threeDigits n ++ [32] &&
    ((getStatusString n false).drop 4).all (fun c => c != 13 && c != 10) &&
    decide ((getStatusString n false).length ≤ 100)

theorem tableOk_of_known : knownStatuses.all tableOk = true := by decide +kernel

/-- The table has nothing for any other number. -/
theorem getStatusString_unknown {n : ℕ} (hn : n ∉ knownStatuses) :
    getStatusString n false = [] := by
  have hne : ∀ k ∈ knownStatuses, ¬ (n : ℤ) = k := fun k hk he => hn (Int.ofNat.inj he ▸ hk)
  simp only [knownStatuses, List.forall_mem_cons, Int.cast_ofNat_Int] at hne
  simp only [getStatusString, hne, if_false]
  rfl

theorem digit_eq {c : UInt8} (hc : 48 ≤ c ∧ c ≤ 57) {d : ℕ} (hd : d = c.toNat - 48) :
    (48 + d).toUInt8 = c := by
  have h1 : 48 ≤ c.toNat := UInt8.le_iff_toNat_le.mp hc.1
  have hsum : 48 + d = c.toNat := by omega
  rw [hsum]
  exact UInt8.ofNat_toNat

/-- A status consists of the digits of its value. -/
theorem threeDigits_statusValue {status : Bytes} (h : statusDigits status) :
    ∃ n : ℕ, statusValue status = n ∧ threeDigits n = status := by
  obtain ⟨a, b, c, rfl, ha, hb, hc⟩ := h.exists
  have hbounds : ∀ x : UInt8, 48 ≤ x ∧ x ≤ 57 → 48 ≤ x.toNat ∧ x.toNat ≤ 57 := fun x hx =>
    ⟨UInt8.le_iff_toNat_le.mp hx.1, UInt8.le_iff_toNat_le.mp hx.2⟩
  have ha' := hbounds a ha
  have hb' := hbounds b hb
  have hc' := hbounds c hc
  refine ⟨(a.toNat - 48) * 100 + (b.toNat - 48) * 10 + (c.toNat - 48), ?_, ?_⟩
  · unfold statusValue
    push_cast
    omega
  · unfold threeDigits
    rw [digit_eq ha (by omega), digit_eq hb (by omega), digit_eq hc (by omega)]

/-- **What the table has for a status begins with its digits.** -/
theorem getStatusString_status {status : Bytes} (h : statusDigits status) :
    (getStatusString (statusValue status) false).length ≤ 100 ∧
      (getStatusString (statusValue status) false ≠ [] →
        ∃ reason, 13 ∉ reason ∧ 10 ∉ reason ∧
          getStatusString (statusValue status) false = status ++ bytes " " ++ reason) := by
  obtain ⟨n, hv, hd⟩ := threeDigits_statusValue h
  rw [hv]
  by_cases hmem : n ∈ knownStatuses
  · have hok := List.all_eq_true.mp tableOk_of_known n hmem
    unfold tableOk at hok
    generalize getStatusString n false = text at hok ⊢
    rw [Bool.and_eq_true, Bool.and_eq_true, beq_iff_eq, hd, List.all_eq_true, decide_eq_true_eq] at hok
    obtain ⟨⟨hstart, hreason⟩, hlen⟩ := hok
    refine ⟨hlen, fun _ => ⟨text.drop 4, fun hcr => ?_, fun hlf => ?_, ?_⟩⟩
    · exact absurd (hreason 13 hcr) (by decide)
    · exact absurd (hreason 10 hlf) (by decide)
    · rw [show bytes " " = [32] by decide, ← hstart, List.take_append_drop]
  · rw [getStatusString_unknown hmem]
    exact ⟨by decide, fun hne => absurd rfl hne⟩

/-! ### The header that is printed -/

/-- The header of a response with this status and these fields. -/
def received (status : Bytes) (fields : List (Bytes × Bytes)) : Header :=
  { statusCode := statusValue status, listHeaders := fields.map fun p => ⟨p.1, p.2⟩ }

/-- The fields that `relay_check_length_info` adds to the header when it is announced. -/
def addedFields (req : Header) (flags : Flags) (h : Header) : List Field :=
  (announced req flags h).listHeaders.drop h.listHeaders.length

/-- The header `h'` has the status and the fields of `h`, and then some short fields. -/
def Extends (h h' : Header) : Prop :=
  ∃ added : List Field, h'.listHeaders = h.listHeaders ++ added ∧ (∀ f ∈ added, fitsArrays f) ∧
    h'.statusCode = h.statusCode

theorem Extends.refl (h : Header) : Extends h h :=
  ⟨[], (List.append_nil _).symm, fun _ hf => absurd hf List.not_mem_nil, rfl⟩

theorem Extends.addPair {h h' : Header} (he : Extends h h') {field value : Bytes}
    (h1 : field.length < 1024) (h2 : value.length < 4096) :
    Extends h (headerAddPair h' field value) := by
  obtain ⟨added, hlist, hfits, hcode⟩ := he
  refine ⟨added ++ [⟨field, value⟩], ?_, ?_, hcode⟩
  · show h'.listHeaders ++ _ = _
    rw [hlist, List.append_assoc]
  · intro f hf
    rcases List.mem_append.mp hf with hf | hf
    · exact hfits f hf
    · rw [List.mem_singleton.mp hf]
      exact ⟨h1, h2⟩

theorem extends_checkedHeader (h : Header) : Extends h (checkedHeader h) := by
  have hproxy : Extends h (if (headerValue h (bytes "proxy-connection")).isSome then h
      else headerAddPair h (bytes "proxy-connection")
        (if h.statusCode < 500 then bytes "keep-alive" else bytes "close")) := by
    split_ifs
    · exact .refl h
    · exact (Extends.refl h).addPair (by decide) (by decide)
    · exact (Extends.refl h).addPair (by decide) (by decide)
  unfold checkedHeader relayCheckLengthInfo
  dsimp only
  by_cases hstatus : h.statusCode > 400
  · rw [if_pos hstatus]
    exact hproxy
  · rw [if_neg hstatus]
    by_cases hlen : ((headerValue h (bytes "content-length")).isNone &&
        (headerValue h (bytes "Transfer-Encoding")).isNone) = true
    · rw [if_pos hlen]
      exact hproxy.addPair (by decide) (by decide)
    · rw [if_neg hlen]
      exact hproxy

/-- The fields of the announced header are the ones it had and the added ones, which are short; the
status is unchanged. -/
theorem announced_fields (req : Header) (flags : Flags) (h : Header) :
    (announced req flags h).listHeaders = h.listHeaders ++ addedFields req flags h ∧
      (∀ f ∈ addedFields req flags h, fitsArrays f) ∧
      (announced req flags h).statusCode = h.statusCode := by
  have hext : Extends h (announced req flags h) := by
    unfold announced
    split_ifs
    · exact extends_checkedHeader h
    · exact .refl h
  obtain ⟨added, hlist, hfits, hcode⟩ := hext
  have heq : addedFields req flags h = added := by
    unfold addedFields
    rw [hlist, List.drop_left]
  rw [heq]
  exact ⟨hlist, hfits, hcode⟩

/-! ### What is asked of the head -/

/-- `data` is the head with this status and these fields: a status line, a line for each field, and a
blank line. -/
def IsHead (status : Bytes) (fields : List Field) (data : Bytes) : Prop :=
  ∃ reason : Bytes, 13 ∉ reason ∧ 10 ∉ reason ∧
    data = bytes "HTTP/1.1 " ++ status ++ bytes " " ++ reason ++ crlf ++
      fields.flatMap fieldLine ++ crlf

/-- The field is shorter than the arrays of `relay_on_header_callback`. -/
def shortField (p : Bytes × Bytes) : Prop := p.1.length < 1024 ∧ p.2.length < 4096

/-- The head fits: its status is in the table, each field fits its arrays, and the text of the head,
with the fields that are added to it, fits its buffer. -/
structure HeadFits (req : Header) (flags : Flags) (status : Bytes) (fields : List (Bytes × Bytes)) :
    Prop where
  known : getStatusString (statusValue status) false ≠ []
  arrays : ∀ p ∈ fields, shortField p
  buffer : (headText (announced req flags (received status fields))).length < 50 * 4096

/-- The relay `r` of a client has submitted the request `req`, and nothing of its response has been
received. -/
structure HeadAwaited (w : World) (r : RelayId) (rel : Relay) (cl : Client) (req : Header) : Prop where
  relay : w.relays r = some rel
  request : rel.requestHeader = some req
  response : rel.responseHeader = {}
  client : w.clients rel.args = some cl
  relaySys : cl.relaySys = true
  current : cl.relay = some r

/-! ### The fields -/

/-- The texts of a field that nghttp2 reports have no NUL. -/
def nulFreeField (p : Bytes × Bytes) : Prop := 0 ∉ p.1 ∧ 0 ∉ p.2

/-- A text fills its array iff it is not shorter. -/
theorem strncpy_length_eq_iff {src : Bytes} {n : ℕ} (h0 : 0 ∉ src) :
    (strncpy src n).length = n ↔ ¬ src.length < n := by
  rw [strncpy_eq_take n h0, List.length_take]
  omega

theorem relayOnHeader_short {p : Bytes × Bytes} (hr : w.relays r = some rel)
    (hnul : nulFreeField p) (hshort : shortField p) :
    wp (relayOnHeader (some r) .response p.1 p.2)
      (fun _ w' => w' =
        w.setRelay r { rel with responseHeader := addField rel.responseHeader p.1 p.2 })
      (fun _ _ => False) w := by
  have hfits : ¬ ((strncpy p.1 1024).length = 1024 ∨ (strncpy p.2 4096).length = 4096) := by
    rw [strncpy_length_eq_iff hnul.1, strncpy_length_eq_iff hnul.2, not_or, not_not, not_not]
    exact hshort
  unfold relayOnHeader addField
  dsimp only
  rw [if_neg hfits]
  simp only [wp_bind, wp_getRelay, hr, wp_ite, wp_putRelay]
  split_ifs <;> rfl

theorem relayOnHeader_long {p : Bytes × Bytes} (hnul : nulFreeField p) (hlong : ¬ shortField p) :
    wp (relayOnHeader (some r) .response p.1 p.2) (fun _ _ => False) (fun _ _ => True) w := by
  have hover : (strncpy p.1 1024).length = 1024 ∨ (strncpy p.2 4096).length = 4096 := by
    rw [strncpy_length_eq_iff hnul.1, strncpy_length_eq_iff hnul.2, ← not_and_or]
    exact hlong
  unfold relayOnHeader
  dsimp only
  rw [if_pos hover, wp_throw]
  trivial

/-- Short fields are added to the header of the relay, in order. -/
theorem runFields_short {fields : List (Bytes × Bytes)} (hr : w.relays r = some rel)
    (hnul : ∀ p ∈ fields, nulFreeField p) (hshort : ∀ p ∈ fields, shortField p) :
    wp (run (fun p : Bytes × Bytes => relayOnHeader (some r) .response p.1 p.2) fields)
      (fun _ w' => w' = w.setRelay r { rel with
        responseHeader := fields.foldl (fun h p => addField h p.1 p.2) rel.responseHeader })
      (fun _ _ => False) w := by
  induction fields generalizing w rel with
  | nil =>
    rw [run, wp_pure]
    show w = w.setRelay r rel
    unfold World.setRelay
    rw [← hr, Function.update_eq_self]
  | cons p fields ih =>
    rw [run, wp_bind]
    refine wp_mono (relayOnHeader_short hr (hnul p List.mem_cons_self)
      (hshort p List.mem_cons_self)) ?_ fun _ _ => id
    rintro _ w1 rfl
    have hr1 : (w.setRelay r { rel with
        responseHeader := addField rel.responseHeader p.1 p.2 }).relays r = _ :=
      Function.update_self ..
    refine wp_mono (ih hr1 (fun x hx => hnul x (List.mem_cons_of_mem p hx))
      fun x hx => hshort x (List.mem_cons_of_mem p hx)) (fun _ w2 h2 => ?_) fun _ _ => id
    rw [h2, List.foldl_cons]
    unfold World.setRelay
    rw [Function.update_idem]

/-- A field that is not short is read past the end of its array. -/
theorem runFields_long {fields : List (Bytes × Bytes)} (hr : w.relays r = some rel)
    (hnul : ∀ p ∈ fields, nulFreeField p) (hlong : ¬ ∀ p ∈ fields, shortField p) :
    wp (run (fun p : Bytes × Bytes => relayOnHeader (some r) .response p.1 p.2) fields)
      (fun _ _ => False) (fun _ _ => True) w := by
  induction fields generalizing w rel with
  | nil => exact absurd (fun p hp => absurd hp List.not_mem_nil) hlong
  | cons p fields ih =>
    rw [run, wp_bind]
    by_cases hp : shortField p
    · refine wp_mono (relayOnHeader_short hr (hnul p List.mem_cons_self) hp) ?_ fun _ _ h => h.elim
      rintro _ w1 rfl
      refine ih (Function.update_self ..) (fun x hx => hnul x (List.mem_cons_of_mem p hx)) ?_
      intro hall
      exact hlong (List.forall_mem_cons.mpr ⟨hp, hall⟩)
    · exact wp_mono (relayOnHeader_long (hnul p List.mem_cons_self) hp) (fun _ _ h => h.elim) fun _ _ => id

/-- The header of the relay after the report of a status and some short fields. -/
theorem foldl_received {status : Bytes} {fields : List (Bytes × Bytes)} (hs : statusDigits status)
    (hreg : ∀ p ∈ fields, regularField p) (hshort : ∀ p ∈ fields, shortField p) :
    ((statusName, status) :: fields).foldl (fun h p => addField h p.1 p.2) {} =
      received status fields := by
  have hstatus : addField {} statusName status = { statusCode := statusValue status } := by
    have hlen := hs.1
    unfold addField
    rw [strncpy_of_lt hs.no_nul (by omega), atoi_status hs,
      if_pos (show strcasecmp (strncpy statusName 1024) (bytes ":status") = true by decide)]
  rw [List.foldl_cons, hstatus, foldl_addField hreg hshort]
  rfl

/-! ### The end of the block -/

/-- When the block is complete, the client prints the announced header. -/
theorem headComplete_spec {flags : Flags} {Q : Unit → World → Prop} {E : Fault → World → Prop}
    (hr : w.relays r = some rel) (hreq : rel.requestHeader = some req)
    (hprint : ∀ w2 rel2, w2.clients = w.clients → w2.relays r = some rel2 →
      rel2.responseHeader = announced req flags rel.responseHeader →
      wp (clientHandleRelayHdrComplete rel.args) Q E w2) :
    wp (headComplete clientRelayCb r flags) Q E w := by
  have hannounce : ∀ w1 rel1, w1.clients = w.clients → w1.relays r = some rel1 →
      rel1.args = rel.args → rel1.responseHeader = announced req flags rel.responseHeader →
      wp (relayOnResponseHeaderComplete clientRelayCb r) Q E w1 := by
    intro w1 rel1 hc1 hr1 hargs hh
    simp only [relayOnResponseHeaderComplete, wp_bind, wp_getRelay, hr1, wp_putRelay,
      wp_relayCallback, World.setRelay_relays, Function.update_self, clientRelayCb]
    have hgoal := hprint (heading w1 r rel1) { rel1 with relayStatus := .headerComplete } hc1
      (Function.update_self ..) hh
    rw [← hargs] at hgoal
    exact hgoal
  unfold headComplete
  unfold announced at hannounce
  cases hes : isEndStream flags with
  | true =>
    rw [hes] at hannounce
    exact hannounce w rel rfl hr rfl rfl
  | false =>
    simp only [Bool.not_false, if_true, wp_bind, wp_getRelay, hr, hreq, wp_ite, wp_putRelay]
    rw [hes] at hannounce
    simp only [Bool.not_false, Bool.true_and] at hannounce
    split_ifs at hannounce ⊢
    · refine hannounce _ (relayCheckLengthInfo rel) rfl (Function.update_self ..) ?_
        (relayCheckLengthInfo_header rel)
      exact (relayCheckLengthInfo_kept rel).1.args
    · exact hannounce w rel rfl hr rfl rfl

/-- The head is printed into its buffer and passed to `client_write`. -/
theorem clientHandleRelayHdrComplete_prints {c : ClientId} {buf : Bytes}
    (hc : w.clients c = some cl) (hsys : cl.relaySys = true) (hcur : cl.relay = some r)
    (hr : w.relays r = some rel)
    (hknown : getStatusString rel.responseHeader.statusCode false ≠ [])
    (hbuf : responseHead rel.responseHeader = some buf) :
    wp (clientHandleRelayHdrComplete c)
      (fun _ w' => writtenTo w' c = writtenTo w c ++ buf) (fun _ _ => False) w := by
  simp only [clientHandleRelayHdrComplete, wp_bind, wp_getClient, hc, wp_clientRelay, hsys, hcur,
    if_true, relayGetHeader, wp_getRelay, hr, wp_pure]
  rw [if_neg (by rw [List.isEmpty_iff]; exact hknown), hbuf]
  simp only [wp_bind, wp_clientWrite, hc, wp_pure]
  exact writtenTo_wroteTo hc buf

/-- Without a text for the status the assertion fails, and without room the buffer is left. -/
theorem clientHandleRelayHdrComplete_stops {c : ClientId}
    (hc : w.clients c = some cl) (hsys : cl.relaySys = true) (hcur : cl.relay = some r)
    (hr : w.relays r = some rel)
    (hno : getStatusString rel.responseHeader.statusCode false = [] ∨
      responseHead rel.responseHeader = none) :
    wp (clientHandleRelayHdrComplete c) (fun _ _ => False) (fun _ _ => True) w := by
  simp only [clientHandleRelayHdrComplete, wp_bind, wp_getClient, hc, wp_clientRelay, hsys, hcur,
    if_true, relayGetHeader, wp_getRelay, hr, wp_pure]
  split_ifs with hempty
  · trivial
  · rcases hno with hno | hno
    · rw [hno] at hempty
      exact absurd rfl hempty
    · rw [hno]
      trivial

/-! ### The head as a whole -/

variable {flags : Flags} {status : Bytes} {fields : List (Bytes × Bytes)}

/-- The reports are about short texts without a NUL iff the fields are short. -/
theorem reports_short (hs : statusDigits status) (hshort : ∀ p ∈ fields, shortField p) :
    ∀ p ∈ (statusName, status) :: fields, shortField p := by
  have hname : statusName.length < 1024 := by decide
  have hstatus : status.length < 4096 := by
    have hlen := hs.1
    omega
  exact List.forall_mem_cons.mpr ⟨⟨hname, hstatus⟩, hshort⟩

theorem reports_nulFree (hs : statusDigits status) (hreg : ∀ p ∈ fields, regularField p) :
    ∀ p ∈ (statusName, status) :: fields, nulFreeField p := by
  have hname : 0 ∉ statusName := by decide
  exact List.forall_mem_cons.mpr
    ⟨⟨hname, hs.no_nul⟩, fun p hp => ⟨(hreg p hp).2.1, (hreg p hp).2.2⟩⟩

/-- All that is printed is short, but perhaps not all together. -/
theorem responseHead_announced (hs : statusDigits status) (hshort : ∀ p ∈ fields, shortField p) :
    responseHead (announced req flags (received status fields)) =
      if (headText (announced req flags (received status fields))).length < 50 * 4096
      then some (headText (announced req flags (received status fields))) else none := by
  obtain ⟨hlist, hadded, hcode⟩ := announced_fields req flags (received status fields)
  refine responseHead_eq (fun f hf => ?_) ?_
  · rw [hlist] at hf
    rcases List.mem_append.mp hf with hf | hf
    · obtain ⟨p, hp, rfl⟩ := List.mem_map.mp hf
      exact hshort p hp
    · exact hadded f hf
  · rw [hcode]
    exact (getStatusString_status hs).1

/-- The text of the announced header is the head that was received, with the added fields. -/
theorem isHead_headText (hs : statusDigits status)
    (hknown : getStatusString (statusValue status) false ≠ []) :
    IsHead status ((fields.map fun p => ⟨p.1, p.2⟩) ++ addedFields req flags (received status fields))
      (headText (announced req flags (received status fields))) := by
  obtain ⟨hlist, -, hcode⟩ := announced_fields req flags (received status fields)
  obtain ⟨reason, hcr, hlf, htext⟩ := (getStatusString_status hs).2 hknown
  refine ⟨reason, hcr, hlf, ?_⟩
  unfold headText
  rw [hlist, hcode, show (received status fields).statusCode = statusValue status from rfl, htext]
  simp only [List.append_assoc]
  rfl

theorem processHead_fits (hw : HeadAwaited w r rel cl req) (hs : statusDigits status)
    (hreg : ∀ p ∈ fields, regularField p) (hfits : HeadFits req flags status fields) :
    wp (processHead r flags ((statusName, status) :: fields))
      (fun _ w' => writtenTo w' rel.args = writtenTo w rel.args ++
        headText (announced req flags (received status fields)))
      (fun _ _ => False) w := by
  rw [processHead, wp_bind]
  refine wp_mono (runFields_short hw.relay (reports_nulFree hs hreg)
    (reports_short hs hfits.arrays)) ?_ fun _ _ => id
  rintro _ w1 rfl
  rw [hw.response, foldl_received hs hreg hfits.arrays]
  refine headComplete_spec (Function.update_self ..) hw.request fun w2 rel2 hc2 hr2 hh => ?_
  have hc : w2.clients rel.args = some cl := by
    rw [hc2]
    exact hw.client
  have hcode : rel2.responseHeader.statusCode = statusValue status := by
    rw [hh]
    exact (announced_fields req flags (received status fields)).2.2
  have hwritten : writtenTo w2 rel.args = writtenTo w rel.args := by
    unfold writtenTo
    rw [hc, hw.client]
  rw [← hwritten]
  refine clientHandleRelayHdrComplete_prints hc hw.relaySys hw.current hr2 ?_ ?_
  · rw [hcode]
    exact hfits.known
  · rw [hh, responseHead_announced hs hfits.arrays, if_pos hfits.buffer]

theorem processHead_stops (hw : HeadAwaited w r rel cl req) (hs : statusDigits status)
    (hreg : ∀ p ∈ fields, regularField p) (hno : ¬ HeadFits req flags status fields) :
    wp (processHead r flags ((statusName, status) :: fields)) (fun _ _ => False) (fun _ _ => True)
      w := by
  rw [processHead, wp_bind]
  by_cases hshort : ∀ p ∈ fields, shortField p
  · refine wp_mono (runFields_short hw.relay (reports_nulFree hs hreg)
      (reports_short hs hshort)) ?_ fun _ _ h => h.elim
    rintro _ w1 rfl
    rw [hw.response, foldl_received hs hreg hshort]
    refine headComplete_spec (Function.update_self ..) hw.request fun w2 rel2 hc2 hr2 hh => ?_
    have hc : w2.clients rel.args = some cl := by
      rw [hc2]
      exact hw.client
    refine clientHandleRelayHdrComplete_stops hc hw.relaySys hw.current hr2 ?_
    rw [hh, (announced_fields req flags (received status fields)).2.2,
      responseHead_announced hs hshort]
    by_contra hboth
    rw [not_or] at hboth
    refine hno ⟨hboth.1, hshort, ?_⟩
    by_contra hlong
    exact hboth.2 (if_neg hlong)
  · refine wp_mono (runFields_long hw.relay (reports_nulFree hs hreg) ?_) (fun _ _ h => h.elim)
      fun _ _ => id
    intro hall
    exact hshort (List.forall_mem_cons.mp hall).2

/-- **The client is given the head that was received iff the head fits**, for any status and any
fields. -/
theorem headPassed_iff (hw : HeadAwaited w r rel cl req) (hs : statusDigits status)
    (hreg : ∀ p ∈ fields, regularField p) :
    wp (processHead r flags ((statusName, status) :: fields))
        (fun _ w' => ∃ data, writtenTo w' rel.args = writtenTo w rel.args ++ data ∧
          IsHead status ((fields.map fun p => ⟨p.1, p.2⟩) ++
            addedFields req flags (received status fields)) data)
        (fun _ _ => False) w ↔ HeadFits req flags status fields := by
  constructor
  · intro hpassed
    by_contra hno
    have hboth := wp_and hpassed (processHead_stops hw hs hreg hno)
    obtain ⟨_, _, hfalse⟩ := exists_of_wp (wp_mono hboth (fun _ _ h => h.2) fun _ _ h => h.1)
    exact hfalse
  · intro hfits
    refine wp_mono (processHead_fits hw hs hreg hfits) (fun _ w' h => ⟨_, h, ?_⟩) fun _ _ => id
    exact isHead_headText hs hfits.known

/-- The relay of the first request awaits a head. -/
theorem headAwaited_submittedGet :
    ∃ rel cl, HeadAwaited submittedGet 0 rel cl firstGet := by
  have hany : (submittedGet.relays 0).any (fun rel => (submittedGet.clients 0).any fun cl =>
      decide (rel.requestHeader = some firstGet ∧ rel.responseHeader = {} ∧ rel.args = 0 ∧
        cl.relaySys = true ∧ cl.relay = some 0)) = true := by
    decide +kernel
  obtain ⟨rel, hr, hany⟩ := (Option.any_eq_true _ _).mp hany
  obtain ⟨cl, hc, hcl⟩ := (Option.any_eq_true _ _).mp hany
  obtain ⟨hreq, hresp, hargs, hsys, hcur⟩ := of_decide_eq_true hcl
  exact ⟨rel, cl, hr, hreq, hresp, hargs ▸ hc, hsys, hcur⟩

/-- The head of an ordinary response. -/
theorem headPassed_iff_ok : ∃ rel cl, HeadAwaited submittedGet 0 rel cl firstGet ∧
    (wp (processHead 0 4 [(statusName, bytes "200"), (bytes "server", bytes "h2")])
        (fun _ w' => ∃ data, writtenTo w' rel.args = writtenTo submittedGet rel.args ++ data ∧
          IsHead (bytes "200") ([⟨bytes "server", bytes "h2"⟩] ++
            addedFields firstGet 4 (received (bytes "200") [(bytes "server", bytes "h2")])) data)
        (fun _ _ => False) submittedGet ↔
      HeadFits firstGet 4 (bytes "200") [(bytes "server", bytes "h2")]) := by
  obtain ⟨rel, cl, hw⟩ := headAwaited_submittedGet
  have hs : statusDigits (bytes "200") := by
    unfold statusDigits
    decide +kernel
  have hreg : ∀ p ∈ [(bytes "server", bytes "h2")], regularField p := by
    intro p hp
    rw [List.mem_singleton.mp hp]
    refine ⟨?_, by decide, by decide⟩
    rintro c ⟨rfl⟩
    decide
  exact ⟨rel, cl, hw, headPassed_iff hw hs hreg⟩

/-- In general the head is not passed on: the table does not have the status 429, and the assertion
fails. -/
theorem not_headPassed : ¬ ∀ (w : World) (r : RelayId) (rel : Relay) (cl : Client) (req : Header)
    (flags : Flags) (status : Bytes) (fields : List (Bytes × Bytes)),
    HeadAwaited w r rel cl req → statusDigits status →
    200 ≤ statusValue status ∧ statusValue status ≤ 599 → (∀ p ∈ fields, regularField p) →
    wp (processHead r flags ((statusName, status) :: fields))
      (fun _ w' => ∃ data, writtenTo w' rel.args = writtenTo w rel.args ++ data ∧
        IsHead status ((fields.map fun p => ⟨p.1, p.2⟩) ++
          addedFields req flags (received status fields)) data)
      (fun _ _ => False) w := by
  intro hall
  obtain ⟨rel, cl, hw⟩ := headAwaited_submittedGet
  have hs : statusDigits (bytes "429") := by
    unfold statusDigits
    decide +kernel
  have h := hall submittedGet 0 rel cl firstGet 4 (bytes "429") [] hw hs (by decide +kernel)
    fun p hp => absurd hp List.not_mem_nil
  have hnot : ¬ wp (processHead 0 4 [(statusName, bytes "429")]) (fun _ _ => True)
      (fun _ _ => False) submittedGet := by
    decide +kernel
  exact hnot (wp_mono h (fun _ _ _ => trivial) fun _ _ => id)

end H2ClientProxy
