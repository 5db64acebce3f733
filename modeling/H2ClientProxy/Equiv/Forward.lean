import H2ClientProxy.Equiv.AppendFormat
import H2ClientProxy.Equiv.Chunked
import H2ClientProxy.Equiv.MessageRequests
import H2ClientProxy.Equiv.RelayReuse
import H2ClientProxy.Equiv.UrlScan

/-!
# A request that is forwarded is still the same request

What `relay_http.c` writes for a request is again the text of a request.

* `Message.forwarded`: the request that the server gets, with the path for its url.
* `requestUrl_state`: the path is a url of its own.
* `sentFor_forwarded`: the text that is written is the text of the forwarded request, which is well
  formed.
* `forward_understood`: whoever reads it as `http_parser.c` does gets the same method, the same header
  fields and the same body.
-/

namespace H2ClientProxy.RelayHttp

open Coalesce
open scoped Bytes

variable {m : Message} {f : Field} {fr : Framing} {url text : Bytes} {frags : List Bytes}

/-! ### The forwarded request -/

/-- A field as it is sent on. -/
def forwardedField (f : Field) : Field :=
  if strcasecmp f.field (bytes "proxy-connection") then { f with field := bytes "Connection" } else f

/-- The body, when its data is sent on in the pieces `frags`. -/
def forwardedBody (frags : List Bytes) : Body → Body
  | .none => .none
  | .length _ => .length frags.flatten
  | .chunked _ _ => .chunked (frags.map fun data => ⟨hexText data.length, data⟩) (bytes "0")
  | .tunnel _ => .tunnel frags.flatten

/-- The request as it is sent on, with the url `url` and in these pieces. -/
def forwarded (m : Message) (url : Bytes) (frags : List Bytes) : Message where
  method := m.method
  url := url
  minor := 1
  fields := m.fields.map forwardedField
  body := forwardedBody frags m.body

/-! ### The header -/

theorem requestField_eq (f : Field) : requestField f = (forwardedField f).text := by
  unfold requestField forwardedField Field.text
  split_ifs <;> rfl

theorem forwardedField_wellFormed (hf : f.WellFormed) : (forwardedField f).WellFormed := by
  unfold forwardedField
  split_ifs with hproxy
  · have hname : bytes "Connection" ≠ [] ∧ ∀ c ∈ bytes "Connection", token c ≠ 0 := by
      decide +kernel
    exact ⟨hname.1, hname.2, hf.value, hf.value_head, fun h => absurd h Bool.false_ne_true⟩
  · exact hf

/-- The renamed field says the same. -/
theorem add_forwardedField (fr : Framing) (f : Field) : fr.add (forwardedField f) = fr.add f := by
  unfold forwardedField
  split_ifs with hproxy
  · have hconn : (Field.is { f with field := bytes "Connection" } (bytes "connection") ||
        Field.is { f with field := bytes "Connection" } (bytes "proxy-connection")) = true := rfl
    have hconn' : (f.is (bytes "connection") || f.is (bytes "proxy-connection")) = true := by
      rw [Field.is, Field.is, hproxy, Bool.or_true]
    unfold Framing.add
    rw [if_pos hconn, if_pos hconn']
    rfl
  · rfl

theorem framing_forwarded (m : Message) (url : Bytes) (frags : List Bytes) :
    (forwarded m url frags).framing = m.framing := by
  have hfold : ∀ (fields : List Field) (fr : Framing),
      (fields.map forwardedField).foldl Framing.add fr = fields.foldl Framing.add fr := by
    intro fields
    induction fields with
    | nil => exact fun _ => rfl
    | cons f fields ih =>
      intro fr
      rw [List.map_cons, List.foldl_cons, List.foldl_cons, add_forwardedField, ih]
  exact hfold m.fields {}

/-- A text that `append_format` has taken is there as a whole. -/
theorem appendFormat_eq_some {buf res : Bytes} {len : ℕ} (hlen : len < 4096 * 20)
    (h : appendFormat buf len text = some res) : res = buf ++ text ∧ res.length < len := by
  rw [appendFormat_formatted] at h
  split_ifs at h with hfit
  have hres := (Option.some.inj h).symm
  have htext : formatted text = text := by
    refine List.take_of_length_le ?_
    rw [List.length_append, length_formatted] at hfit
    omega
  rw [htext] at hres
  refine ⟨hres, ?_⟩
  rw [← Option.some.inj h]
  exact hfit

theorem foldlM_appendFormat {fields : List Field} {buf res : Bytes}
    (h : fields.foldlM (fun buf pos => appendFormat buf requestBufSize (requestField pos)) buf = some res) :
    res = buf ++ (fields.map forwardedField).flatMap Field.text := by
  induction fields generalizing buf with
  | nil =>
    rw [List.map_nil, List.flatMap_nil, List.append_nil]
    exact (Option.some.inj h).symm
  | cons f fields ih =>
    rw [List.foldlM_cons] at h
    obtain ⟨buf1, h1, hrest⟩ := Option.bind_eq_some_iff.mp h
    obtain ⟨hbuf1, -⟩ := appendFormat_eq_some (by decide) h1
    rw [ih hrest, hbuf1, requestField_eq, List.map_cons, List.flatMap_cons, List.append_assoc]

theorem strncpy_str {method : HttpMethod} (h : method ≠ .unsubscribe) :
    strncpy method.str 10 = method.str := by
  cases method with
  | unsubscribe => exact absurd rfl h
  | _ => decide

/-- **The head that is sent** is that of the forwarded request. -/
theorem requestHead_eq_some (frags : List Bytes) {id : ℕ} {buf : Bytes} (hmethod : m.method ≠ .unsubscribe)
    (h : requestHead (m.request id).header = some buf) :
    ∃ url, requestUrl m.url = some url ∧ buf = (forwarded m url frags).head ∧
      buf.length < requestBufSize := by
  obtain ⟨url, hurl, h⟩ := Option.bind_eq_some_iff.mp h
  obtain ⟨buf1, h1, h⟩ := Option.bind_eq_some_iff.mp h
  obtain ⟨buf2, h2, h⟩ := Option.bind_eq_some_iff.mp h
  split_ifs at h with hfit
  obtain ⟨hbuf1, -⟩ := appendFormat_eq_some (by decide) h1
  have hbuf2 := foldlM_appendFormat h2
  have hbuf := (Option.some.inj h).symm
  have hline : buf1 = (forwarded m url frags).line := by
    have hversion : bytes " HTTP/1.1\r\n" =
        bytes " " ++ (bytes "HTTP/1." ++ [ascii '0' + Nat.toUInt8 1] ++ crlf) := by decide
    rw [hbuf1, show (m.request id).header.method = m.method.str from strncpy_str hmethod, hversion,
      List.nil_append, ← List.append_assoc]
    rfl
  refine ⟨url, hurl, ?_, ?_⟩
  · rw [hbuf, hbuf2, hline]
    rfl
  · rw [hbuf, List.length_append]
    exact hfit

/-! ### The url -/

/-- The states behind a path. -/
def inPath (s : UrlState) : Bool :=
  s ∈ [UrlState.path, .queryStringStart, .queryString, .fragmentStart, .fragment]

theorem inPath_step : ∀ n : ℕ, n < 256 → isFragmentChar n.toUInt8 = true →
    ∀ s ∈ [UrlState.path, .queryStringStart, .queryString, .fragmentStart, .fragment],
      inPath (parseUrlChar s n.toUInt8) = true := by
  decide +kernel

/-- Whatever a url may contain may stand behind a path. -/
theorem inPath_foldl {rest : Bytes} (hrest : ∀ c ∈ rest, isFragmentChar c = true) {s : UrlState}
    (hs : inPath s = true) : inPath (rest.foldl parseUrlChar s) = true := by
  induction rest generalizing s with
  | nil => exact hs
  | cons c rest ih =>
    obtain ⟨hc, hrest⟩ := List.forall_mem_cons.mp hrest
    refine ih hrest ?_
    have h := inPath_step c.toNat c.toNat_lt
    rw [show c.toNat.toUInt8 = c from UInt8.ofNat_toNat] at h
    exact h hc s (of_decide_eq_true hs)

theorem isFragmentChar_of_live : ∀ n : ℕ, n < 256 → isFragmentChar n.toUInt8 = false →
    ∀ s ∈ [UrlState.dead, .spacesBeforeUrl, .schema, .schemaSlash, .schemaSlashSlash, .serverStart,
      .server, .serverWithAt, .path, .queryStringStart, .queryString, .fragmentStart, .fragment],
      parseUrlChar s n.toUInt8 = .dead := by
  decide +kernel

theorem isFragmentChar_of_ne_dead {s : UrlState} {c : UInt8} (h : parseUrlChar s c ≠ .dead) :
    isFragmentChar c = true := by
  by_contra hc
  have hall := isFragmentChar_of_live c.toNat c.toNat_lt
  rw [show c.toNat.toUInt8 = c from UInt8.ofNat_toNat] at hall
  exact h (hall (Bool.eq_false_iff.mpr hc) s (by cases s <;> decide))

theorem live_chars {w : Bytes} {s : UrlState} (h : w.foldl parseUrlChar s ≠ .dead) :
    ∀ c ∈ w, isFragmentChar c = true := by
  induction w generalizing s with
  | nil => exact fun c hc => absurd hc List.not_mem_nil
  | cons c w ih =>
    refine List.forall_mem_cons.mpr ⟨isFragmentChar_of_ne_dead (s := s) ?_, ih h⟩
    intro hdead
    rw [List.foldl_cons, hdead, foldl_dead] at h
    exact h rfl

/-- The path starts at its first character. -/
structure PathAt (buf : Bytes) (scan : UrlScan) : Prop where
  old : scan.s = .path → scan.oldUf = some .path
  starts : scan.u.fieldSet .path = true → ∃ k c, (scan.u.fieldData .path).off = u16 k ∧
    buf[k]? = some c ∧ (c = ascii '/' ∨ c = ascii '*')

theorem path_first : ∀ n : ℕ, n < 256 → ∀ s ∈ [UrlState.dead, .spacesBeforeUrl, .schema, .schemaSlash,
    .schemaSlashSlash, .serverStart, .server, .serverWithAt, .queryStringStart, .queryString,
    .fragmentStart, .fragment], parseUrlChar s n.toUInt8 = .path →
      n.toUInt8 = ascii '/' ∨ n.toUInt8 = ascii '*' := by
  decide +kernel

theorem field_path {s : UrlState} (h : s.field = some .path) : s = .path := by
  cases s <;> first | rfl | exact absurd h (by decide)

theorem PathAt.next {buf : Bytes} {scan : UrlScan} (h : PathAt buf scan) {p : ℕ} {c : UInt8}
    (hc : buf[p]? = some c) : PathAt buf (scan.next (parseUrlChar scan.s c) p) := by
  unfold UrlScan.next
  cases hf : (parseUrlChar scan.s c).field with
  | none =>
    refine ⟨fun hs => ?_, h.starts⟩
    have hs : parseUrlChar scan.s c = .path := hs
    rw [hs] at hf
    exact absurd hf (by decide)
  | some uf =>
    dsimp only
    refine ⟨fun hs => ?_, ?_⟩
    · have hs : parseUrlChar scan.s c = .path := hs
      rw [hs] at hf
      exact hf.symm
    · by_cases hold : scan.oldUf = some uf
      · rw [if_pos hold]
        intro hset
        obtain ⟨k, d, hoff, hd⟩ := h.starts hset
        refine ⟨k, d, ?_, hd⟩
        rw [← hoff, HttpParserUrl.grow]
        dsimp only
        rw [Function.update_apply]
        split_ifs with huf
        · rw [huf]
        · rfl
      · rw [if_neg hold]
        by_cases huf : uf = .path
        · -- the path begins here, behind a state of another part
          subst huf
          have hst := field_path hf
          have hne : scan.s ≠ .path := fun hs => hold (h.old hs)
          have hfirst := path_first c.toNat c.toNat_lt scan.s
            (by cases hs : scan.s <;> first | decide | exact absurd hs hne)
          rw [show c.toNat.toUInt8 = c from UInt8.ofNat_toNat] at hfirst
          intro _
          refine ⟨p, c, ?_, hc, hfirst hst⟩
          rw [HttpParserUrl.start]
          dsimp only
          rw [Function.update_self]
        · intro hset
          rw [HttpParserUrl.start] at hset ⊢
          dsimp only at hset ⊢
          rw [Function.update_of_ne (Ne.symm huf)] at hset ⊢
          exact h.starts hset

theorem scanUrl_pathAt {buf : Bytes} {p : ℕ} {scan : UrlScan} (h : PathAt buf scan)
    (hlive : (buf.drop p).foldl parseUrlChar scan.s ≠ .dead) :
    ∃ scan', scanUrl (buf.drop p) p scan = .ok scan' ∧ PathAt buf scan' := by
  generalize hrest : buf.drop p = rest at hlive ⊢
  induction rest generalizing p scan with
  | nil => exact ⟨scan, rfl, h⟩
  | cons c rest ih =>
    rw [List.foldl_cons] at hlive
    have hne : parseUrlChar scan.s c ≠ .dead := by
      intro hdead
      rw [hdead, foldl_dead] at hlive
      exact hlive rfl
    have hget : buf[p]? = some c := by
      rw [← List.head?_drop, hrest]
      rfl
    have hdrop : buf.drop (p + 1) = rest := by
      rw [← List.tail_drop, hrest]
      rfl
    have hs : (scan.next (parseUrlChar scan.s c) p).s = parseUrlChar scan.s c := by
      unfold UrlScan.next
      cases (parseUrlChar scan.s c).field <;> rfl
    rw [scanUrl]
    rw [if_neg hne]
    exact ih (h.next hget) hdrop (by rw [hs]; exact hlive)

/-- The server part does not change the path. -/
theorem hostLoop_path (w : Bytes) (p : ℕ) (s : HostState) (u : HttpParserUrl) :
    (hostLoop w p s u).2.fieldSet .path = u.fieldSet .path ∧
      (hostLoop w p s u).2.fieldData .path = u.fieldData .path := by
  induction w generalizing p s u with
  | nil => exact ⟨rfl, rfl⟩
  | cons c w ih =>
    rw [hostLoop]
    split_ifs
    · exact ⟨rfl, rfl⟩
    · obtain ⟨h1, h2⟩ := ih (p + 1) (httpParseHostChar s c) (recordHost u s (httpParseHostChar s c) p)
      rw [h1, h2]
      unfold recordHost
      split <;> try split_ifs
      all_goals exact ⟨rfl, rfl⟩

theorem parseUrl_pathAt (hlive : url.foldl parseUrlChar .spacesBeforeUrl ≠ .dead)
    (hset : (httpParserParseUrl .zero url false).2.fieldSet .path = true) :
    ∃ k c, ((httpParserParseUrl .zero url false).2.fieldData .path).off = u16 k ∧
      url[k]? = some c ∧ (c = ascii '/' ∨ c = ascii '*') := by
  have hinit : PathAt url (.init .zero false) :=
    ⟨fun h => UrlState.noConfusion h, fun h => absurd h Bool.false_ne_true⟩
  obtain ⟨scan, hscan, hpath⟩ := scanUrl_pathAt (p := 0) hinit hlive
  rw [List.drop_zero] at hscan
  have hhost : (parseHostPart url scan).2.fieldSet .path = scan.u.fieldSet .path ∧
      (parseHostPart url scan).2.fieldData .path = scan.u.fieldData .path := by
    unfold parseHostPart
    split_ifs
    · exact hostLoop_path _ _ _ _
    · exact ⟨rfl, rfl⟩
  have hfinish : (httpParserParseUrl .zero url false).2.fieldSet .path =
        (parseHostPart url scan).2.fieldSet .path ∧
      (httpParserParseUrl .zero url false).2.fieldData .path =
        (parseHostPart url scan).2.fieldData .path := by
    rw [httpParserParseUrl, hscan]
    dsimp only
    unfold finishUrl
    dsimp only
    split_ifs <;> exact ⟨rfl, rfl⟩
  rw [hfinish.1, hhost.1] at hset
  rw [hfinish.2, hhost.2]
  exact hpath.starts hset

/-- **The target that is sent** is a path, which may be followed by a query and a fragment. -/
theorem requestUrl_state (hlive : url.foldl parseUrlChar .spacesBeforeUrl ≠ .dead)
    (h : requestUrl url = some text) :
    text ≠ [] ∧ inPath (text.foldl parseUrlChar .spacesBeforeUrl) = true := by
  have hchars := live_chars hlive
  have hpath : ∀ c rest, (c = ascii '/' ∨ c = ascii '*') → (∀ x ∈ rest, isFragmentChar x = true) →
      text = c :: rest → text ≠ [] ∧ inPath (text.foldl parseUrlChar .spacesBeforeUrl) = true := by
    rintro c rest hc hrest rfl
    refine ⟨List.cons_ne_nil c rest, ?_⟩
    rw [List.foldl_cons]
    refine inPath_foldl hrest ?_
    rcases hc with rfl | rfl <;> decide
  have hpart : ∀ n k, ∀ x ∈ (url.drop n).take k, isFragmentChar x = true := fun n k x hx =>
    hchars x (List.mem_of_mem_drop (List.mem_of_mem_take hx))
  unfold requestUrl at h
  dsimp only at h
  by_cases hset : (httpParserParseUrl .zero url false).2.fieldSet .path = true
  · rw [if_pos hset] at h
    obtain ⟨k, c, hoff, hk, hc⟩ := parseUrl_pathAt hlive hset
    rw [hoff] at h
    split_ifs at h with hshort
    have htext := (Option.some.inj h).symm
    have hlt : k < url.length := (List.getElem?_eq_some_iff.mp hk).1
    -- an offset that wraps around would leave a text that is too long
    have hwrap : u16 k = k := by
      unfold u16 at hshort ⊢
      rw [List.length_drop] at hshort
      omega
    rw [hwrap, ← List.getElem_cons_drop hlt] at htext
    have hget : url[k] = c := Option.some.inj ((List.getElem?_eq_getElem hlt).symm.trans hk)
    refine hpath _ _ (by rw [hget]; exact hc) (fun x hx => ?_) htext
    exact hchars x (List.mem_of_mem_drop hx)
  · rw [if_neg hset] at h
    generalize hquery : (if (httpParserParseUrl .zero url false).2.fieldSet .query = true then
      bytes "?" ++ (httpParserParseUrl .zero url false).2.text url .query else []) = query at h
    generalize hmark : (if (httpParserParseUrl .zero url false).2.fieldSet .fragment = true then
      bytes "#" else []) = mark at h
    have hquery' : ∀ x ∈ query, isFragmentChar x = true := by
      rw [← hquery]
      split_ifs
      · exact List.forall_mem_cons.mpr ⟨by decide, hpart _ _⟩
      · exact fun x hx => absurd hx List.not_mem_nil
    have hmark' : ∀ x ∈ mark, isFragmentChar x = true := by
      rw [← hmark]
      split_ifs
      · decide +kernel
      · exact fun x hx => absurd hx List.not_mem_nil
    split_ifs at h
    refine hpath (ascii '/') (query ++ mark ++ _) (Or.inl rfl) (fun x hx => ?_)
      (Option.some.inj h).symm
    rcases List.mem_append.mp hx with hx | hx
    · rcases List.mem_append.mp hx with hx | hx
      · exact hquery' x hx
      · exact hmark' x hx
    · exact hpart _ _ x hx

/-! ### The body -/

theorem isSize_hexText {n : ℕ} (hn : n < ullongMax) : IsSize (hexText n) n where
  ne := by
    intro h
    have hhead := hexText_head n []
    rw [h] at hhead
    exact Bool.false_ne_true hhead
  value := by
    have h := readDigits_hexText n 0 []
    rw [List.append_nil, Nat.zero_mul, Nat.zero_add] at h
    exact h
  lt := hn
  line := by
    have hlen : (hexText n).length ≤ 16 := by
      rw [hexText, List.length_map, Nat.length_toDigits_le_iff (by decide) (by decide)]
      exact hn.trans (by decide)
    have hmax : 18 ≤ httpMaxHeaderSize := by decide
    omega

/-- The pieces in which a body arrives. -/
structure Pieces (frags : List Bytes) (data : Bytes) : Prop where
  ne : ∀ frag ∈ frags, frag ≠ []
  short : ∀ frag ∈ frags, frag.length < ullongMax
  flatten : frags.flatten = data

theorem Pieces.nil (h : Pieces frags []) : frags = [] := by
  cases frags with
  | nil => rfl
  | cons frag frags =>
    exact absurd (List.flatten_eq_nil_iff.mp h.flatten frag List.mem_cons_self)
      (h.ne frag List.mem_cons_self)

theorem forwardedBody_data (h : Pieces frags m.body.data) :
    (forwardedBody frags m.body).data = m.body.data := by
  cases hb : m.body with
  | none => rfl
  | length data =>
    rw [hb] at h
    exact h.flatten
  | chunked chunks last =>
    rw [hb] at h
    rw [← h.flatten]
    show (frags.map _).flatMap Chunk.data = _
    rw [List.flatMap_map, List.flatMap_id']
  | tunnel data =>
    rw [hb] at h
    exact h.flatten

/-- The text of the body is what the relay writes. -/
theorem forwardedBody_text (hm : m.WellFormed) (hbody : ∀ data, m.body ≠ .tunnel data)
    (h : Pieces frags m.body.data) :
    framedBody m.framing.flags.chunked frags true = (forwardedBody frags m.body).text := by
  have hfits := hm.body
  have hplain : framedBody false frags true = frags.flatten := by
    rw [framedBody, Bool.and_false]
    show frags.flatMap (fun data => data) ++ [] = _
    rw [List.append_nil, List.flatMap_id']
  cases hb : m.body with
  | none =>
    rw [hb] at hfits h
    rw [hfits.2.1, hplain, h.flatten]
    rfl
  | length data =>
    rw [hb] at hfits
    rw [hfits.2.1, hplain]
    rfl
  | chunked chunks last =>
    rw [hb] at hfits
    rw [hfits.2.1, framedBody, forwardedBody, Body.text, List.flatMap_map]
    have hchunk : ∀ data ∈ frags, fragment true data = Chunk.text ⟨hexText data.length, data⟩ := fun _ _ => rfl
    rw [List.flatMap_congr hchunk]
    rfl
  | tunnel data => exact absurd hb (hbody data)

theorem forwardedBody_fits (hm : m.WellFormed) (hbody : ∀ data, m.body ≠ .tunnel data)
    (h : Pieces frags m.body.data) : (forwardedBody frags m.body).Fits m.method m.framing := by
  have hfits := hm.body
  cases hb : m.body with
  | none =>
    rw [hb] at hfits
    exact hfits
  | length data =>
    rw [hb] at hfits h
    have hflat : frags.flatten = data := h.flatten
    rw [forwardedBody, hflat]
    exact hfits
  | chunked chunks last =>
    rw [hb] at hfits
    obtain ⟨hno, hchunked, -, -⟩ := hfits
    refine ⟨hno, hchunked, fun c hc => ?_, ⟨by decide, by decide, by decide, by decide⟩⟩
    obtain ⟨data, hdata, rfl⟩ := List.mem_map.mp hc
    exact ⟨h.ne data hdata, isSize_hexText (h.short data hdata)⟩
  | tunnel data => exact absurd hb (hbody data)

/-! ### The request -/

/-- The forwarded request is well formed. -/
theorem forwarded_wellFormed (hm : m.WellFormed) (hconnect : m.method ≠ .connect)
    (hbody : ∀ data, m.body ≠ .tunnel data) (hfrags : Pieces frags m.body.data)
    (hurl : requestUrl m.url = some url) (hhead : (forwarded m url frags).head.length < requestBufSize) :
    (forwarded m url frags).WellFormed := by
  have hlive : m.url.foldl parseUrlChar .spacesBeforeUrl ≠ .dead := by
    intro h
    refine hm.url ?_
    rw [Message.urlState, if_neg hconnect, h]
    exact List.mem_cons_self
  obtain ⟨hne, hstate⟩ := requestUrl_state hlive hurl
  refine ⟨hne, ?_, (by show 1 < 10; decide), ?_, ?_, ?_⟩
  · show url.foldl parseUrlChar (if m.method = .connect then .serverStart else .spacesBeforeUrl) ∉ _
    rw [if_neg hconnect]
    have hnone : ∀ s, inPath s = true →
        s ∉ [UrlState.dead, .schema, .schemaSlash, .schemaSlashSlash, .serverStart] := by
      intro s
      cases s <;> decide
    exact hnone _ hstate
  · intro f hf
    obtain ⟨f0, hf0, rfl⟩ := List.mem_map.mp hf
    exact forwardedField_wellFormed (hm.fields f0 hf0)
  · rw [framing_forwarded]
    exact forwardedBody_fits hm hbody hfrags
  · have hsize : requestBufSize + 2 ≤ httpMaxHeaderSize := by decide
    omega

theorem isConnect_request {id : ℕ} (hconnect : m.method ≠ .connect) :
    isConnect (m.request id).header = false := by
  show strcasecmp (strncpy m.method.str 10) (bytes "connect") = false
  cases hm : m.method with
  | connect => exact absurd hm hconnect
  | _ => decide

/-- **What is written for a request** is the text of the forwarded request, as long as the relay frames
the body as the header says. -/
theorem sentFor_forwarded {s : Relays} {r : RelayId} {relay : HttpRelay} {id : ℕ} {buf : Bytes}
    (hw : Wired s r relay) (hm : m.WellFormed) (hconnect : m.method ≠ .connect)
    (hlong : m.method ≠ .unsubscribe) (hbody : ∀ data, m.body ≠ .tunnel data)
    (hchunked : (relay.isChunkPost || chunkedPost (m.request id).header) = m.framing.flags.chunked)
    (hfrags : Pieces frags m.body.data) (hhead : requestHead (m.request id).header = some buf) :
    ∃ url, sentFor s r (m.request id).header frags true = some (forwarded m url frags).text ∧
      (forwarded m url frags).WellFormed := by
  obtain ⟨url, hurl, hbuf, hlen⟩ := requestHead_eq_some frags hlong hhead
  refine ⟨url, ?_, forwarded_wellFormed hm hconnect hbody hfrags hurl (by rw [← hbuf]; exact hlen)⟩
  rw [hw.writes.sentFor_eq, headSent, isConnect_request hconnect, if_neg Bool.false_ne_true, hhead,
    chunkedRequest, isConnect_request hconnect, Bool.not_false, Bool.true_and, hchunked,
    forwardedBody_text hm hbody hfrags, Option.map_some, hbuf]
  rfl

/-- **A request that is forwarded is still the same request**: whoever reads what the relay writes for it,
in any pieces, as `http_parser.c` and `header.c` do, gets its method, its header fields, of which
`Proxy-Connection` is renamed, and its body, in whatever pieces this had come. -/
theorem forward_understood {s : Relays} {r : RelayId} {relay : HttpRelay} {id : ℕ} {buf : Bytes}
    (hw : Wired s r relay) (hm : m.WellFormed) (hconnect : m.method ≠ .connect)
    (hlong : m.method ≠ .unsubscribe) (hbody : ∀ data, m.body ≠ .tunnel data)
    (hvalues : ∀ f ∈ m.fields, NulFree f.value)
    (hchunked : (relay.isChunkPost || chunkedPost (m.request id).header) = m.framing.flags.chunked)
    (hfrags : Pieces frags m.body.data) (hhead : requestHead (m.request id).header = some buf) :
    ∃ sent, sentFor s r (m.request id).header frags true = some sent ∧
      ∀ pieces : List Bytes, (∀ data ∈ pieces, data ≠ []) → pieces.flatten = sent →
        ∃ p, p.errno = none ∧ (Connection.feed {} pieces).map Connection.forgetUrls =
          some ⟨p, [{
            header := { headerNew 1 with
              method := m.method.str, listHeaders := m.fields.map forwardedField }
            complete := true, body := m.body.data }]⟩ := by
  -- what is sent is the text of a well-formed message
  obtain ⟨url, hsent, hwf⟩ := sentFor_forwarded hw hm hconnect hlong hbody hchunked hfrags hhead
  refine ⟨_, hsent, fun pieces hne hflat => ?_⟩
  have hone : Message.Pipelined [forwarded m url frags] :=
    ⟨List.cons_ne_nil _ _, fun m' hm' => by rw [List.mem_singleton.mp hm']; exact hwf,
      fun m' hm' => absurd hm' List.not_mem_nil⟩
  have hvalues' : ∀ m' ∈ [forwarded m url frags], ∀ f ∈ m'.fields, NulFree f.value := by
    intro m' hm' f hf
    rw [List.mem_singleton.mp hm'] at hf
    obtain ⟨f0, hf0, rfl⟩ := List.mem_map.mp hf
    have hsame : (forwardedField f0).value = f0.value := by
      unfold forwardedField
      split_ifs <;> rfl
    rw [hsame]
    exact hvalues f0 hf0
  have htext : [forwarded m url frags].flatMap Message.text = (forwarded m url frags).text :=
    List.flatMap_singleton _ _
  have herr := (httpParserExecute_messages hone atStart_init).1
  obtain ⟨p, hp, hrecv⟩ := recv_messages hone hvalues'
  refine ⟨p, hp, ?_⟩
  -- in pieces as in one piece, and there the reader is complete
  rw [feed_eq_recv {} (texts_ne hone) herr (nulFree_texts hone hvalues') hne (hflat.trans htext.symm),
    hrecv]
  have hrequest : ((forwarded m url frags).request 1).forgetUrl =
      { header := { headerNew 1 with method := m.method.str, listHeaders := m.fields.map forwardedField }
        complete := true, body := m.body.data } := by
    rw [ParsedRequest.forgetUrl, Message.request]
    dsimp only
    rw [show (forwarded m url frags).body.data = m.body.data from forwardedBody_data hfrags,
      show strncpy (forwarded m url frags).method.str 10 = m.method.str from strncpy_str hlong]
    rfl
  show some (⟨p, [((forwarded m url frags).request 1).forgetUrl]⟩ : Connection) = _
  rw [hrequest]

/-- A request in chunks that came through another proxy. -/
def chunkedPut : Message where
  method := .put
  url := bytes "http://h?q"
  minor := 1
  fields := [⟨bytes "Transfer-Encoding", bytes "chunked"⟩, ⟨bytes "Proxy-Connection", bytes "close"⟩]
  body := .chunked [⟨bytes "4", bytes "abcd"⟩] (bytes "00")

/-- One relay, which is connected. -/
def oneWired : Relays := Relays.setRelay {} 0 (some { newRelay (bytes "h") 80 with conn := some {} })

theorem oneWired_wired : Wired oneWired 0 { newRelay (bytes "h") 80 with conn := some {} } := ⟨rfl, rfl⟩

/-- The chunks may be cut anew, and the name of a field is changed. -/
theorem forward_understood_chunks :
    ∃ sent, sentFor oneWired 0 (chunkedPut.request 1).header [bytes "abc", bytes "d"] true = some sent ∧
      ∀ pieces : List Bytes, (∀ data ∈ pieces, data ≠ []) → pieces.flatten = sent →
        ∃ p, p.errno = none ∧ (Connection.feed {} pieces).map Connection.forgetUrls =
          some ⟨p, [{
            header := { headerNew 1 with
              method := bytes "PUT"
              listHeaders := [⟨bytes "Transfer-Encoding", bytes "chunked"⟩,
                ⟨bytes "Connection", bytes "close"⟩] }
            complete := true, body := bytes "abcd" }]⟩ := by
  obtain ⟨buf, hbuf⟩ := Option.isSome_iff_exists.mp
    (show (requestHead (chunkedPut.request 1).header).isSome = true by decide +kernel)
  exact forward_understood (m := chunkedPut) oneWired_wired (by decide +kernel) (by decide) (by decide)
    (fun data h => Body.noConfusion h) (by unfold NulFree; decide +kernel) (by decide +kernel) ⟨by decide, by decide, by decide⟩ hbuf

end H2ClientProxy.RelayHttp
