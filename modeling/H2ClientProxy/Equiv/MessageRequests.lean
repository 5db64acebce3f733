import H2ClientProxy.Equiv.Header
import H2ClientProxy.Equiv.Messages

/-!
# The requests that a client sends are those that the proxy sees

* `Message.request`: what `client.c` has to know of a request.
* `foldlM_message`: its callbacks make this of the calls of the parser.
* `recv_messages`: requests that arrive at once are understood.
* `feed_messages`: so are requests that arrive in any pieces, except for their urls.
-/

namespace H2ClientProxy

open Coalesce
open scoped Bytes

variable {m : Message} {req : ParsedRequest} {h h0 : Header} {fs : List Field}

/-- The request `m`, which is the one with the number `id` on its connection. -/
def Message.request (id : ℕ) (m : Message) : ParsedRequest where
  header := { headerNew id with
    method := strncpy m.method.str 10, url := some m.url, listHeaders := m.fields }
  complete := true
  body := m.body.data

/-- The requests `msgs`, with the numbers from `id` on. -/
def Message.requests : ℕ → List Message → List ParsedRequest
  | _, [] => []
  | id, m :: msgs => m.request id :: Message.requests (id + 1) msgs

/-! ### No part has a NUL in it -/

theorem parseUrlChar_nul (s : UrlState) : parseUrlChar s 0 = .dead := by
  cases s <;> decide

theorem nulFree_of_foldl {w : Bytes} {s : UrlState} (h : w.foldl parseUrlChar s ≠ .dead) : NulFree w := by
  induction w generalizing s with
  | nil => exact fun c hc => absurd hc List.not_mem_nil
  | cons c w ih =>
    refine List.forall_mem_cons.mpr ⟨?_, ih h⟩
    rintro rfl
    rw [List.foldl_cons, parseUrlChar_nul, foldl_dead] at h
    exact h rfl

theorem nulFree_url (hm : m.WellFormed) : NulFree m.url :=
  nulFree_of_foldl (s := if m.method = .connect then .serverStart else .spacesBeforeUrl) fun h =>
    hm.url (by rw [Message.urlState, h]; exact List.mem_cons_self)

theorem nulFree_name {f : Field} (hf : f.WellFormed) : NulFree f.field := by
  rintro c hc rfl
  exact hf.name 0 hc (by decide)

/-! ### One request -/

/-- Calls that do not begin a request go to the last one. -/
theorem foldlM_onRequests_concat {calls : List Callback} (hcalls : ∀ cb ∈ calls, cb ≠ .messageBegin)
    (reqs : List ParsedRequest) (req : ParsedRequest) :
    calls.foldlM Callback.onRequests (reqs ++ [req]) =
      (calls.foldlM Callback.onRequest req).map fun req => reqs ++ [req] := by
  induction calls generalizing req with
  | nil => rfl
  | cons cb calls ih =>
    obtain ⟨hcb, hcalls⟩ := List.forall_mem_cons.mp hcalls
    rw [List.foldlM_cons, List.foldlM_cons, onRequests_eq _ hcb, List.getLast?_concat,
      Option.bind_some, List.dropLast_concat]
    cases cb.onRequest req with
    | none => rfl
    | some req1 => exact ih hcalls req1

/-- The calls for a field link it. -/
theorem foldlM_fieldCalls {f : Field} (req : ParsedRequest) (hr : ReadyFor h0 fs req.header) (hf : f.WellFormed)
    (hvalue : NulFree f.value) :
    ∃ h', (Message.fieldCalls f).foldlM Callback.onRequest req = some { req with header := h' } ∧
      ReadyFor h0 (fs ++ [f]) h' := by
  obtain ⟨h1, happend, hin⟩ := hr.appendField (nulFree_name hf)
  refine ⟨headerAppendValue h1 f.value, ?_, .inValue (hin.appendValue hvalue) rfl⟩
  have hname : (Callback.headerField f.field).onRequest req = some { req with header := h1 } := by
    show (headerAppendField req.header f.field).map _ = _
    rw [happend]
    rfl
  rw [Message.fieldCalls, List.foldlM_cons, hname]
  rfl

theorem foldlM_fields {fields : List Field} (req : ParsedRequest) (hr : ReadyFor h0 fs req.header)
    (hfields : ∀ f ∈ fields, f.WellFormed ∧ NulFree f.value) :
    ∃ h', (fields.flatMap Message.fieldCalls).foldlM Callback.onRequest req =
        some { req with header := h' } ∧
      ReadyFor h0 (fs ++ fields) h' := by
  induction fields generalizing req fs with
  | nil => exact ⟨req.header, rfl, by rwa [List.append_nil]⟩
  | cons f fields ih =>
    obtain ⟨⟨hf, hvalue⟩, hfields⟩ := List.forall_mem_cons.mp hfields
    obtain ⟨h1, hcalls, hr1⟩ := foldlM_fieldCalls req hr hf hvalue
    obtain ⟨h2, hrest, hr2⟩ := ih { req with header := h1 } hr1 hfields
    refine ⟨h2, ?_, ?_⟩
    · rw [List.flatMap_cons, List.foldlM_append, hcalls]
      exact hrest
    · rwa [List.append_cons]

/-- The end of the header links the last field, and notes the method. -/
theorem onRequest_headersComplete (req : ParsedRequest) (hr : ReadyFor h0 fs req.header) (method : HttpMethod) :
    (Callback.headersComplete method).onRequest req =
      some { req with
        header := { h0 with
          method := strncpy method.str 10, lastField := none, lastValue := none, isLastValue := false
          listHeaders := fs }
        complete := true } := by
  have hmethod : ReadyFor { h0 with method := strncpy method.str 10 } fs
      (headerSetMethod req.header method.str) := by
    cases hr with
    | between hb => exact .between ⟨by rw [hb.eq]; rfl⟩
    | inValue hv hfs => exact .inValue ⟨by rw [hv.eq]; rfl⟩ hfs
  obtain ⟨h', hcomplete, hb⟩ := hmethod.complete
  show ((headerAppendComplete (headerSetMethod req.header method.str)).map fun h =>
    { req with header := h, complete := true }) = _
  rw [hcomplete, hb.eq]
  rfl

/-- The calls for a body collect its bytes. -/
theorem foldlM_bodyCalls (body : Body) (req : ParsedRequest) :
    (Message.bodyCalls body).foldlM Callback.onRequest req =
      some { req with body := req.body ++ body.data } := by
  have hchunks : ∀ (chunks : List Chunk) (req : ParsedRequest),
      (chunks.map (fun c : Chunk => Callback.body c.data) ++ [Callback.messageComplete]).foldlM
          Callback.onRequest req =
        some { req with body := req.body ++ chunks.flatMap Chunk.data } := by
    intro chunks
    induction chunks with
    | nil =>
      intro req
      rw [List.flatMap_nil, List.append_nil]
      rfl
    | cons c chunks ih =>
      intro req
      have hrest := ih { req with body := req.body ++ c.data }
      rw [List.append_assoc] at hrest
      exact hrest
  cases body with
  | none =>
    rw [Body.data, List.append_nil]
    rfl
  | length data => rfl
  | chunked chunks last => exact hchunks chunks req
  | tunnel data =>
    rw [Message.bodyCalls]
    split_ifs with hnil
    · rw [Body.data, hnil, List.append_nil]
      rfl
    · rfl

/-- The calls for a request behind its first one. -/
def Message.restCalls (m : Message) : List Callback :=
  [Callback.url m.url] ++ m.fields.flatMap Message.fieldCalls ++ [Callback.headersComplete m.method]
    ++ Message.bodyCalls m.body

theorem mem_restCalls {cb : Callback} (hcb : cb ∈ m.restCalls) :
    cb = .url m.url ∨ (∃ f ∈ m.fields, cb = .headerField f.field ∨ cb = .headerValue f.value) ∨
      cb = .headersComplete m.method ∨ (∃ data, cb = .body data) ∨ cb = .messageComplete := by
  have hbody : ∀ body : Body, cb ∈ Message.bodyCalls body →
      (∃ data, cb = .body data) ∨ cb = .messageComplete := by
    intro body hcb
    cases body with
    | none => exact Or.inr (List.mem_singleton.mp hcb)
    | length data =>
      rcases List.mem_cons.mp hcb with h | h
      · exact Or.inl ⟨data, h⟩
      · exact Or.inr (List.mem_singleton.mp h)
    | chunked chunks last =>
      rcases List.mem_append.mp hcb with h | h
      · obtain ⟨c, -, rfl⟩ := List.mem_map.mp h
        exact Or.inl ⟨c.data, rfl⟩
      · exact Or.inr (List.mem_singleton.mp h)
    | tunnel data =>
      rw [Message.bodyCalls] at hcb
      split_ifs at hcb
      · exact absurd hcb List.not_mem_nil
      · exact Or.inl ⟨data, List.mem_singleton.mp hcb⟩
  rcases List.mem_append.mp hcb with h | h
  · rcases List.mem_append.mp h with h | h
    · rcases List.mem_append.mp h with h | h
      · exact Or.inl (List.mem_singleton.mp h)
      · obtain ⟨f, hf, h⟩ := List.mem_flatMap.mp h
        refine Or.inr (Or.inl ⟨f, hf, ?_⟩)
        rcases List.mem_cons.mp h with h | h
        · exact Or.inl h
        · exact Or.inr (List.mem_singleton.mp h)
    · exact Or.inr (Or.inr (Or.inl (List.mem_singleton.mp h)))
  · exact Or.inr (Or.inr (Or.inr (hbody m.body h)))

theorem restCalls_ne {cb : Callback} (hcb : cb ∈ m.restCalls) : cb ≠ .messageBegin := by
  rcases mem_restCalls hcb with rfl | ⟨f, -, rfl | rfl⟩ | rfl | ⟨data, rfl⟩ | rfl <;>
    exact Callback.noConfusion

/-- **The calls for a request** make it the last request of the connection. -/
theorem foldlM_message (hm : m.WellFormed) (hvalues : ∀ f ∈ m.fields, NulFree f.value)
    (reqs : List ParsedRequest) :
    m.calls.foldlM Callback.onRequests reqs = some (reqs ++ [m.request (reqs.length + 1)]) := by
  have hcalls : m.calls = .messageBegin :: m.restCalls := rfl
  rw [hcalls, List.foldlM_cons]
  show List.foldlM Callback.onRequests (reqs ++ [{ header := headerNew (reqs.length + 1) }]) _ = _
  rw [foldlM_onRequests_concat fun cb => restCalls_ne]
  have hready : ReadyFor (headerSetUrl (headerNew (reqs.length + 1)) m.url) []
      (headerSetUrl (headerNew (reqs.length + 1)) m.url) := .between ⟨rfl⟩
  obtain ⟨h1, hfields, hr⟩ := foldlM_fields
    { header := headerSetUrl (headerNew (reqs.length + 1)) m.url } hready
    fun f hf => ⟨hm.fields f hf, hvalues f hf⟩
  have hurl : ([Callback.url m.url]).foldlM Callback.onRequest
      { header := headerNew (reqs.length + 1) } =
        some { header := headerSetUrl (headerNew (reqs.length + 1)) m.url } := rfl
  have hcomplete := onRequest_headersComplete { header := h1 } hr m.method
  rw [Message.restCalls, List.foldlM_append, List.foldlM_append, List.foldlM_append, hurl]
  show Option.map _ (((m.fields.flatMap Message.fieldCalls).foldlM Callback.onRequest _ >>= _) >>= _) = _
  rw [hfields]
  show Option.map _ (((Callback.headersComplete m.method).onRequest { header := h1 } >>=
    fun req => some req) >>= _) = _
  rw [hcomplete]
  show Option.map _ ((Message.bodyCalls m.body).foldlM Callback.onRequest _) = _
  rw [foldlM_bodyCalls, Option.map_some]
  show some (reqs ++ [{
    header := { headerNew (reqs.length + 1) with
      method := strncpy m.method.str 10, url := some (cstr m.url), listHeaders := [] ++ m.fields }
    complete := true, body := [] ++ m.body.data }]) = _
  rw [cstr_of_nulFree (nulFree_url hm)]
  rfl

/-- The calls for the requests of a connection. -/
theorem foldlM_messages {msgs : List Message} (hwf : ∀ m ∈ msgs, m.WellFormed)
    (hvalues : ∀ m ∈ msgs, ∀ f ∈ m.fields, NulFree f.value) (reqs : List ParsedRequest) :
    (msgs.flatMap Message.calls).foldlM Callback.onRequests reqs =
      some (reqs ++ Message.requests (reqs.length + 1) msgs) := by
  induction msgs generalizing reqs with
  | nil =>
    rw [Message.requests, List.append_nil]
    rfl
  | cons m msgs ih =>
    obtain ⟨hm, hwf⟩ := List.forall_mem_cons.mp hwf
    obtain ⟨hvalue, hvalues⟩ := List.forall_mem_cons.mp hvalues
    have hrest := ih hwf hvalues (reqs ++ [m.request (reqs.length + 1)])
    rw [List.length_append, List.length_singleton, List.append_assoc] at hrest
    rw [List.flatMap_cons, List.foldlM_append, foldlM_message hm hvalue]
    exact hrest

/-! ### The requests of a connection -/

/-- **Requests that arrive at once are understood**, with their urls. -/
theorem recv_messages {msgs : List Message} (hmsgs : Message.Pipelined msgs)
    (hvalues : ∀ m ∈ msgs, ∀ f ∈ m.fields, NulFree f.value) :
    ∃ p, p.errno = none ∧ Connection.recv {} (msgs.flatMap Message.text) =
      some ⟨p, Message.requests 1 msgs⟩ := by
  obtain ⟨herr, hcalls⟩ := httpParserExecute_messages hmsgs atStart_init
  refine ⟨_, herr, ?_⟩
  rw [Connection.recv, hcalls, foldlM_messages hmsgs.wellFormed hvalues]
  rfl

theorem nulFree_calls {m : Message} (hm : m.WellFormed) (hvalues : ∀ f ∈ m.fields, NulFree f.value) :
    ∀ cb ∈ m.calls, cb.NulFree := by
  intro cb hcb
  rcases List.mem_cons.mp (show cb ∈ .messageBegin :: m.restCalls from hcb) with rfl | hcb
  · trivial
  · rcases mem_restCalls hcb with rfl | ⟨f, hf, rfl | rfl⟩ | rfl | ⟨data, rfl⟩ | rfl
    · trivial
    · exact nulFree_name (hm.fields f hf)
    · exact hvalues f hf
    · trivial
    · trivial
    · trivial

theorem nulFree_texts {msgs : List Message} (hmsgs : Message.Pipelined msgs)
    (hvalues : ∀ m ∈ msgs, ∀ f ∈ m.fields, NulFree f.value) :
    ∀ cb ∈ (httpParserExecute .init (msgs.flatMap Message.text)).2, cb.NulFree := by
  rw [(httpParserExecute_messages hmsgs atStart_init).2]
  intro cb hcb
  obtain ⟨m, hm, hcb⟩ := List.mem_flatMap.mp hcb
  exact nulFree_calls (hmsgs.wellFormed m hm) (hvalues m hm) cb hcb

/-- **Requests that arrive in any pieces are understood**: the proxy sees these requests and no other
ones, with their methods, header fields and bodies, and each one is complete.  The urls are left out,
for `header_set_url` keeps the last piece of a url alone. -/
theorem feed_messages {msgs : List Message} (hmsgs : Message.Pipelined msgs)
    (hvalues : ∀ m ∈ msgs, ∀ f ∈ m.fields, NulFree f.value) {pieces : List Bytes}
    (hne : ∀ data ∈ pieces, data ≠ []) (hflat : pieces.flatten = msgs.flatMap Message.text) :
    ∃ p, p.errno = none ∧ (Connection.feed {} pieces).map Connection.forgetUrls =
      some ⟨p, (Message.requests 1 msgs).map ParsedRequest.forgetUrl⟩ := by
  obtain ⟨p, hp, hrecv⟩ := recv_messages hmsgs hvalues
  have herr := (httpParserExecute_messages hmsgs atStart_init).1
  refine ⟨p, hp, ?_⟩
  rw [feed_eq_recv {} (texts_ne hmsgs) herr (nulFree_texts hmsgs hvalues) hne hflat, hrecv]
  rfl

/-- A request in chunks, and one that closes the connection. -/
def twoMessages : List Message :=
  [{ method := .post, url := bytes "/a", minor := 1
     fields := [⟨bytes "TE", []⟩, ⟨bytes "Transfer-encoding", bytes "Chunked "⟩]
     body := .chunked [⟨bytes "03", bytes "abc"⟩, ⟨bytes "1", bytes "d"⟩] (bytes "0") },
   { method := .put, url := bytes "http://h/b?c", minor := 0
     fields := [⟨bytes "content-Length", bytes "002"⟩, ⟨bytes "A", bytes "b c"⟩]
     body := .length (bytes "xy") }]

theorem twoMessages_pipelined : Message.Pipelined twoMessages :=
  ⟨by decide, by decide +kernel, by decide +kernel⟩

/-- Two requests that follow each other, cut within the header of the first one. -/
theorem feed_messages_two : ∃ p, p.errno = none ∧
    (Connection.feed {} [(twoMessages.flatMap Message.text).take 30,
      (twoMessages.flatMap Message.text).drop 30]).map Connection.forgetUrls =
        some ⟨p, (Message.requests 1 twoMessages).map ParsedRequest.forgetUrl⟩ :=
  feed_messages twoMessages_pipelined (by unfold NulFree; decide +kernel) (by decide +kernel) (by
    rw [List.flatten_cons, List.flatten_singleton, List.take_append_drop])

end H2ClientProxy
