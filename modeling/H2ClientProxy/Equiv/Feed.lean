import H2ClientProxy.Equiv.Pieces

/-!
# The requests of a connection in any pieces

The callbacks of `client.c` do not see where the parser has cut a name, a value or a body, as long as a
name or a value has no NUL in it; only `client_url_complete` does.

* `onRequest_merge`: two calls with data do what the merged call does, except for the url.
* `feed_eq_coalesce`: the requests are those that the coalesced calls make.
* `feed_pieces`: the requests of a connection are the same for any two ways to cut its input, except for
  their urls.
-/

namespace H2ClientProxy

open Coalesce

/-- A header without its url, which `header_set_url` replaces with each fragment. -/
def Header.forgetUrl (h : Header) : Header := { h with url := none }

/-- A request without its url. -/
def ParsedRequest.forgetUrl (req : ParsedRequest) : ParsedRequest :=
  { req with header := req.header.forgetUrl }

/-- The requests without their urls. -/
def Connection.forgetUrls (c : Connection) : Connection :=
  { c with requests := c.requests.map ParsedRequest.forgetUrl }

/-- The text that `header.c` takes for a C string. -/
def Callback.NulFree : Callback → Prop
  | .headerField data => H2ClientProxy.NulFree data
  | .headerValue data => H2ClientProxy.NulFree data
  | _ => True

instance decidableNulFree : ∀ cb : Callback, Decidable cb.NulFree
  | .headerField data => inferInstanceAs (Decidable (∀ c ∈ data, c ≠ 0))
  | .headerValue data => inferInstanceAs (Decidable (∀ c ∈ data, c ≠ 0))
  | .messageBegin | .url _ | .headersComplete _ | .body _ | .messageComplete =>
    inferInstanceAs (Decidable True)

theorem nulFree_append {a b : Bytes} : NulFree (a ++ b) ↔ NulFree a ∧ NulFree b := by
  unfold NulFree
  exact List.forall_mem_append

theorem nulFree_merge {a b ab : Callback} (h : mergeCalls a b = some ab) :
    ab.NulFree ↔ a.NulFree ∧ b.NulFree := by
  obtain ⟨j, x, y, rfl, rfl, rfl⟩ := mergeCalls_eq_some h
  cases j with
  | headerField => exact nulFree_append
  | headerValue => exact nulFree_append
  | url => exact ⟨fun _ => ⟨trivial, trivial⟩, fun _ => trivial⟩
  | body => exact ⟨fun _ => ⟨trivial, trivial⟩, fun _ => trivial⟩

theorem appendFragment_append (old : Option Bytes) {a b : Bytes} (h : NulFree (a ++ b)) :
    appendFragment (some (appendFragment old a)) b = appendFragment old (a ++ b) := by
  obtain ⟨ha, hb⟩ := nulFree_append.mp h
  rw [appendFragment, appendFragment, appendFragment, cstr_of_nulFree h, cstr_of_nulFree ha,
    cstr_of_nulFree hb, Option.getD_some, List.append_assoc]

theorem headerAppendField_eq (h : Header) (field : Bytes) :
    headerAppendField h field = (if h.isLastValue then headerAppendComplete h else some h).map fun h =>
      { h with lastField := some (appendFragment h.lastField field), isLastValue := false } := by
  unfold headerAppendField
  split_ifs
  · cases headerAppendComplete h <;> rfl
  · rfl

theorem headerAppendField_append (h : Header) {a b : Bytes} (hnul : NulFree (a ++ b)) :
    ((headerAppendField h a).bind fun h => headerAppendField h b) = headerAppendField h (a ++ b) := by
  rw [headerAppendField_eq, headerAppendField_eq h]
  cases (if h.isLastValue then headerAppendComplete h else some h) with
  | none => rfl
  | some h1 =>
    rw [Option.map_some, Option.bind_some, headerAppendField_eq, if_neg (by simp), Option.map_some,
      Option.map_some, ← appendFragment_append h1.lastField hnul]

theorem headerAppendValue_append (h : Header) {a b : Bytes} (hnul : NulFree (a ++ b)) :
    headerAppendValue (headerAppendValue h a) b = headerAppendValue h (a ++ b) := by
  unfold headerAppendValue
  rw [← appendFragment_append h.lastValue hnul]

/-- The header does not see where a name or a value was cut. -/
theorem onRequest_merge {a b ab : Callback} (hm : mergeCalls a b = some ab) (hnul : ab.NulFree)
    (req : ParsedRequest) :
    ((a.onRequest req).bind fun req => b.onRequest req).map ParsedRequest.forgetUrl =
      (ab.onRequest req).map ParsedRequest.forgetUrl := by
  obtain ⟨j, x, y, rfl, rfl, rfl⟩ := mergeCalls_eq_some hm
  cases j with
  | headerField =>
    have hfield := headerAppendField_append req.header hnul
    show (((headerAppendField req.header x).map fun h => { req with header := h }).bind fun req =>
        (headerAppendField req.header y).map fun h => { req with header := h }).map
          ParsedRequest.forgetUrl =
      ((headerAppendField req.header (x ++ y)).map fun h => { req with header := h }).map
        ParsedRequest.forgetUrl
    rw [← hfield]
    cases headerAppendField req.header x with
    | none => rfl
    | some h => rfl
  | headerValue =>
    have hvalue := headerAppendValue_append req.header hnul
    show some (ParsedRequest.forgetUrl { req with
      header := headerAppendValue (headerAppendValue req.header x) y }) = _
    rw [hvalue]
    rfl
  | url => rfl
  | body =>
    show some (ParsedRequest.forgetUrl { req with body := req.body ++ x ++ y }) = _
    rw [List.append_assoc]
    rfl

theorem headerAppendComplete_forgetUrl (h : Header) :
    headerAppendComplete h.forgetUrl = (headerAppendComplete h).map Header.forgetUrl := by
  obtain ⟨id, method, url, lastField, lastValue, isLastValue, fields, status⟩ := h
  cases isLastValue with
  | false => rfl
  | true =>
    cases lastField with
    | none => rfl
    | some f => cases lastValue <;> rfl

theorem headerAppendField_forgetUrl (h : Header) (field : Bytes) :
    headerAppendField h.forgetUrl field = (headerAppendField h field).map Header.forgetUrl := by
  rw [headerAppendField_eq, headerAppendField_eq, headerAppendComplete_forgetUrl,
    show h.forgetUrl.isLastValue = h.isLastValue from rfl]
  split_ifs
  · cases headerAppendComplete h <;> rfl
  · rfl

/-- No call reads the url. -/
theorem onHeader_forgetUrl (cb : Callback) (h : Header) :
    (cb.onHeader h.forgetUrl).map Header.forgetUrl = (cb.onHeader h).map Header.forgetUrl := by
  cases cb with
  | headerField data =>
    show (headerAppendField h.forgetUrl data).map _ = (headerAppendField h data).map _
    rw [headerAppendField_forgetUrl, Option.map_map]
    rfl
  | headersComplete method =>
    show (headerAppendComplete (headerSetMethod h method.str).forgetUrl).map _ =
      (headerAppendComplete (headerSetMethod h method.str)).map _
    rw [headerAppendComplete_forgetUrl, Option.map_map]
    rfl
  | _ => rfl

theorem onRequest_forgetUrl (cb : Callback) (req : ParsedRequest) :
    (cb.onRequest req.forgetUrl).map ParsedRequest.forgetUrl =
      (cb.onRequest req).map ParsedRequest.forgetUrl := by
  have hheader := onHeader_forgetUrl cb req.header
  unfold Callback.onRequest
  rw [show req.forgetUrl.header = req.header.forgetUrl from rfl]
  cases h1 : cb.onHeader req.header.forgetUrl with
  | none =>
    cases h2 : cb.onHeader req.header with
    | none => rfl
    | some x =>
      rw [h1, h2] at hheader
      exact absurd hheader.symm (Option.some_ne_none _)
  | some y =>
    cases h2 : cb.onHeader req.header with
    | none =>
      rw [h1, h2] at hheader
      exact absurd hheader (Option.some_ne_none _)
    | some x =>
      rw [h1, h2] at hheader
      have hyx : y.forgetUrl = x.forgetUrl := Option.some.inj hheader
      cases cb <;> simp [ParsedRequest.forgetUrl, hyx]

/-- What a call does to requests whose urls are not looked at. -/
def Callback.onForgotten (reqs : List ParsedRequest) (cb : Callback) : Option (List ParsedRequest) :=
  (cb.onRequests reqs).map fun reqs => reqs.map ParsedRequest.forgetUrl

theorem onRequests_eq (reqs : List ParsedRequest) {cb : Callback} (hcb : cb ≠ .messageBegin) :
    cb.onRequests reqs = reqs.getLast?.bind fun req =>
      (cb.onRequest req).map fun req => reqs.dropLast ++ [req] := by
  cases cb with
  | messageBegin => exact absurd rfl hcb
  | _ => cases hl : reqs.getLast? <;> simp only [Callback.onRequests, hl] <;> rfl

theorem map_concat_forgetUrl (o : Option ParsedRequest) (reqs : List ParsedRequest) :
    (o.map fun req => reqs ++ [req]).map (fun reqs => reqs.map ParsedRequest.forgetUrl) =
      (o.map ParsedRequest.forgetUrl).map fun req => reqs.map ParsedRequest.forgetUrl ++ [req] := by
  cases o with
  | none => rfl
  | some req => exact congrArg some List.map_append

theorem onForgotten_forgetUrl (reqs : List ParsedRequest) (cb : Callback) :
    cb.onForgotten (reqs.map ParsedRequest.forgetUrl) = cb.onForgotten reqs := by
  unfold Callback.onForgotten
  by_cases hcb : cb = .messageBegin
  · rw [hcb]
    simp only [Callback.onRequests, Option.map_some, List.map_append, List.map_map, List.length_map]
    rfl
  · rw [onRequests_eq _ hcb, onRequests_eq _ hcb, List.getLast?_map]
    cases reqs.getLast? with
    | none => rfl
    | some req =>
      rw [Option.map_some, Option.bind_some, Option.bind_some, map_concat_forgetUrl,
        map_concat_forgetUrl, onRequest_forgetUrl, ← List.map_dropLast, List.map_map]
      rfl

/-- The requests do not see where the data of a call was cut. -/
theorem onForgotten_merge {a b ab : Callback} (hm : mergeCalls a b = some ab) (hnul : ab.NulFree)
    (reqs : List ParsedRequest) : (a.onForgotten reqs >>= fun reqs => b.onForgotten reqs) =
      ab.onForgotten reqs := by
  have hne : a ≠ .messageBegin ∧ b ≠ .messageBegin ∧ ab ≠ .messageBegin := by
    obtain ⟨j, x, y, rfl, rfl, rfl⟩ := mergeCalls_eq_some hm
    cases j <;> exact ⟨Callback.noConfusion, Callback.noConfusion, Callback.noConfusion⟩
  have hreq := onRequest_merge hm hnul
  have hforget : ∀ o : Option (List ParsedRequest),
      ((o.map fun reqs => reqs.map ParsedRequest.forgetUrl).bind fun reqs => b.onForgotten reqs) =
        o.bind fun reqs => b.onForgotten reqs := by
    intro o
    cases o with
    | none => rfl
    | some reqs => exact onForgotten_forgetUrl reqs b
  show ((a.onRequests reqs).map fun reqs => reqs.map ParsedRequest.forgetUrl).bind
    (fun reqs => b.onForgotten reqs) = (ab.onRequests reqs).map _
  rw [hforget, onRequests_eq _ hne.1, onRequests_eq _ hne.2.2]
  cases reqs.getLast? with
  | none => rfl
  | some req =>
    rw [Option.bind_some, Option.bind_some, map_concat_forgetUrl, ← hreq req]
    cases a.onRequest req with
    | none => rfl
    | some r1 =>
      rw [Option.map_some, Option.bind_some, Option.bind_some, Callback.onForgotten,
        onRequests_eq _ hne.2.1, List.getLast?_concat, List.dropLast_concat, Option.bind_some,
        map_concat_forgetUrl]

theorem foldlM_onForgotten (calls : List Callback) (reqs : List ParsedRequest) :
    (calls.foldlM Callback.onRequests reqs).map (fun reqs => reqs.map ParsedRequest.forgetUrl) =
      calls.foldlM Callback.onForgotten (reqs.map ParsedRequest.forgetUrl) := by
  induction calls generalizing reqs with
  | nil => rfl
  | cons cb calls ih =>
    rw [List.foldlM_cons, List.foldlM_cons, onForgotten_forgetUrl]
    unfold Callback.onForgotten
    cases cb.onRequests reqs with
    | none => rfl
    | some reqs1 => exact ih reqs1

theorem feed_eq (c : Connection) (pieces : List Bytes) :
    c.feed pieces = ((executePieces c.parser pieces).2.foldlM Callback.onRequests c.requests).map
      fun reqs => ⟨(executePieces c.parser pieces).1, reqs⟩ := by
  induction pieces generalizing c with
  | nil => rfl
  | cons data pieces ih =>
    have hcons : c.feed (data :: pieces) = (c.recv data).bind fun c => c.feed pieces :=
      List.foldlM_cons
    rw [hcons, executePieces, List.foldlM_append]
    unfold Connection.recv
    dsimp only
    cases (httpParserExecute c.parser data).2.foldlM Callback.onRequests c.requests with
    | none => rfl
    | some reqs => exact ih _

/-- What any way of cutting the input makes of the requests is what the coalesced calls for the whole
input make of them. -/
theorem feed_eq_coalesce (c : Connection) {data : Bytes}
    (herr : (httpParserExecute c.parser data).1.errno = none)
    (hnul : ∀ cb ∈ (httpParserExecute c.parser data).2, cb.NulFree) {pieces : List Bytes}
    (hp : pieces ≠ []) (hne : ∀ piece ∈ pieces, piece ≠ []) (hflat : pieces.flatten = data) :
    (c.feed pieces).map Connection.forgetUrls =
      ((coalesce mergeCalls (httpParserExecute c.parser data).2).foldlM
        Callback.onForgotten (c.requests.map ParsedRequest.forgetUrl)).map
          fun reqs => ⟨(httpParserExecute c.parser data).1, reqs⟩ := by
  obtain ⟨hparser, hcalls⟩ := executePieces_flatten c.parser pieces hne hp
  rw [hflat] at hparser hcalls
  have hnul' : ∀ cb ∈ coalesce mergeCalls (executePieces c.parser pieces).2, cb.NulFree := by
    rw [hcalls herr]
    exact forall_coalesce (fun hm ha hb => (nulFree_merge hm).mpr ⟨ha, hb⟩) hnul
  rw [← hcalls herr, foldlM_coalesce (fun hm => (nulFree_merge hm).mp) onForgotten_merge hnul',
    ← foldlM_onForgotten, feed_eq, hparser, Option.map_map, Option.map_map]
  rfl

/-- **The requests of a connection do not depend on the pieces** in which its input arrives, except for
their urls: the parser ends in the same state, the same requests have begun, with the same methods,
header fields and bodies, and the same ones are complete. -/
theorem feed_pieces (c : Connection) {pieces pieces' : List Bytes} (hne : ∀ data ∈ pieces, data ≠ [])
    (hne' : ∀ data ∈ pieces', data ≠ []) (hflat : pieces.flatten = pieces'.flatten)
    (herr : (httpParserExecute c.parser pieces.flatten).1.errno = none)
    (hnul : ∀ cb ∈ (httpParserExecute c.parser pieces.flatten).2, cb.NulFree) :
    (c.feed pieces).map Connection.forgetUrls = (c.feed pieces').map Connection.forgetUrls := by
  by_cases hnil : pieces.flatten = []
  · have hall : ∀ ps : List Bytes, (∀ data ∈ ps, data ≠ []) → ps.flatten = [] → ps = [] := by
      intro ps hps hflat
      cases ps with
      | nil => rfl
      | cons data ps =>
        exact absurd (List.flatten_eq_nil_iff.mp hflat data List.mem_cons_self)
          (hps data List.mem_cons_self)
    rw [hall pieces hne hnil, hall pieces' hne' (hflat ▸ hnil)]
  · have hpne : pieces ≠ [] := fun h => hnil (by rw [h]; rfl)
    have hpne' : pieces' ≠ [] := fun h => hnil (by rw [hflat, h]; rfl)
    rw [feed_eq_coalesce c herr hnul hpne hne rfl, feed_eq_coalesce c herr hnul hpne' hne' hflat.symm]

/-- Pieces, or everything at once. -/
theorem feed_eq_recv (c : Connection) {data : Bytes} (hdata : data ≠ [])
    (herr : (httpParserExecute c.parser data).1.errno = none)
    (hnul : ∀ cb ∈ (httpParserExecute c.parser data).2, cb.NulFree) {pieces : List Bytes}
    (hne : ∀ piece ∈ pieces, piece ≠ []) (hflat : pieces.flatten = data) :
    (c.feed pieces).map Connection.forgetUrls = (c.recv data).map Connection.forgetUrls := by
  have hpne : pieces ≠ [] := by
    rintro rfl
    exact hdata hflat.symm
  have hone : c.feed [data] = c.recv data := by
    show (c.recv data).bind (fun c => some c) = c.recv data
    exact Option.bind_fun_some _
  rw [← hone, feed_eq_coalesce c herr hnul hpne hne hflat,
    feed_eq_coalesce c herr hnul (List.cons_ne_nil data [])
      (fun piece hpiece => by rw [List.mem_singleton.mp hpiece]; exact hdata) List.flatten_singleton]

/-- A request that is cut within its words is received as if it came in one piece. -/
theorem feed_pieces_cut : (Connection.feed {} cutRequest).map Connection.forgetUrls =
    (Connection.feed {} [cutRequest.flatten]).map Connection.forgetUrls :=
  feed_pieces {} (by decide) (by decide) (by decide) (by decide +kernel) (by decide +kernel)

end H2ClientProxy
