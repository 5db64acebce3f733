import H2ClientProxy.Equiv.Request
import H2ClientProxy.Equiv.UrlHost

/-!
# A url that is taken apart and put together again

`relay_send_request` reassembles the url of a request from its parts: `:scheme`, `://`, `:authority` and
`:path`.  Of an IPv6 literal `http_parser_parse_url_` reports the text between the brackets, so that the
brackets are lost.

* `UrlGrammar`: what the parts of a url look like.
* `parseUrl_grammar`: the parts of an accepted url that is shorter than 2¹⁶ bytes are such parts.
* `parseUrl_compose`: parts with a host without colons that are put together are taken apart again.
* `recomposes_iff`: when the submitted request stands for the url it was made from.
-/

namespace H2ClientProxy

variable {url : Bytes} {u : HttpParserUrl} {e : UrlScan} {header : Header} {nvs : List Nv}

/-! ### The parts of an accepted url -/

/-- A path starts with a slash. -/
structure IsPath (path : Bytes) : Prop where
  head : path.head? = some (ascii '/')
  chars : ∀ c ∈ path, isUrlChar c = true

/-- A query is not empty. -/
structure IsQuery (query : Bytes) : Prop where
  ne_nil : query ≠ []
  chars : ∀ c ∈ query, isQueryChar c = true

/-- A fragment is not empty and does not start with a `#`. -/
structure IsFragment (fragment : Bytes) : Prop where
  ne_nil : fragment ≠ []
  head : fragment.head? ≠ some (ascii '#')
  chars : ∀ c ∈ fragment, isFragmentChar c = true

/-- The parts of a url in absolute form. -/
structure UrlGrammar (url : Bytes) (u : HttpParserUrl) : Prop where
  scheme : ∃ t, partOf url u .schema = some t ∧ t ≠ [] ∧ ∀ c ∈ t, isAlpha c = true
  host : ∃ t, partOf url u .host = some t ∧ IsHost t
  port : ∀ t, partOf url u .port = some t → IsPort t ∧ digitsValue t 0 = u.port
  path : ∀ t, partOf url u .path = some t → IsPath t
  query : ∀ t, partOf url u .query = some t → IsQuery t
  fragment : ∀ t, partOf url u .fragment = some t → IsFragment t

theorem nonNil_eq_some {t s : Bytes} (h : nonNil t = some s) : s = t ∧ t ≠ [] := by
  unfold nonNil at h
  split_ifs at h with hnil
  exact ⟨(Option.some.inj h).symm, hnil⟩

/-- What is behind the server part of a text that the loop accepts: nothing, a path or a query. -/
theorem head_urlRest {c : UInt8} {r : Bytes} (h : urlRest url = c :: r) : isServerChar c = false := by
  have hhead := List.head?_dropWhile_not isServerChar (urlAfter url)
  unfold urlRest at h
  rw [h] at hhead
  exact hhead

/-- A digit is not what the server part ends with. -/
theorem isNum_of_isServerChar {c : UInt8} (h : isServerChar c = false) : isNum c = false := by
  unfold isServerChar at h
  rw [Bool.and_eq_false_iff, bne_eq_false_iff_eq, bne_eq_false_iff_eq] at h
  obtain rfl | rfl := h <;> decide

/-- A path that is not empty starts where the server part ends. -/
theorem isPath_urlPath (h : urlPath url ≠ []) : IsPath (urlPath url) := by
  refine ⟨?_, fun c hc => List.mem_takeWhile_imp hc⟩
  obtain ⟨c, path, hpath⟩ := List.exists_cons_of_ne_nil h
  cases hrest : urlRest url with
  | nil =>
    rw [urlPath, hrest] at hpath
    cases hpath
  | cons d rest =>
    rw [urlPath, hrest, List.takeWhile_cons] at hpath
    split_ifs at hpath with hd
    have hend := head_urlRest hrest
    rw [urlPath, hrest, List.takeWhile_cons_of_pos hd]
    unfold isServerChar at hend
    rw [Bool.and_eq_false_iff, bne_eq_false_iff_eq, bne_eq_false_iff_eq] at hend
    obtain rfl | rfl := hend
    · rfl
    · exact absurd hd (by decide)

theorem isQuery_urlQuery (h : urlQuery url ≠ []) : IsQuery (urlQuery url) := by
  refine ⟨h, ?_⟩
  unfold urlQuery
  cases (urlRest url).dropWhile isUrlChar with
  | nil => simp [queryText]
  | cons c t =>
    rw [queryText]
    split_ifs
    · exact fun d hd => List.mem_takeWhile_imp hd
    · simp

/-- A fragment does not start with a `#`. -/
theorem head_fragmentText (t : Bytes) : (fragmentText t).head? ≠ some (ascii '#') := by
  have hhead := List.head?_dropWhile_not (· == ascii '#') t
  unfold fragmentText
  intro hmark
  rw [hmark] at hhead
  exact absurd hhead (by decide)

theorem head_urlFragment (url : Bytes) : (urlFragment url).head? ≠ some (ascii '#') := by
  have hmarked : ∀ t, (markedFragment t).head? ≠ some (ascii '#') := by
    intro t
    cases t with
    | nil => decide
    | cons c t => exact head_fragmentText t
  unfold urlFragment
  cases (urlRest url).dropWhile isUrlChar with
  | nil => decide
  | cons c t =>
    rw [restFragment]
    split_ifs
    · exact hmarked _
    · exact head_fragmentText t

/-! ### What `http_parser_parse_url_` reports -/

/-- Behind `http_parse_host_` only the value of the port is looked at. -/
theorem finishUrl_eq_ok {hosted : HttpParserUrl} (h : finishUrl url false (true, hosted) = (true, u)) :
    u.fieldSet = hosted.fieldSet ∧ u.fieldData = hosted.fieldData ∧
      (hosted.fieldSet .port = true →
        u.port = strtoul (url.drop (hosted.fieldData .port).off) ∧ u.port ≤ 0xffff) := by
  obtain ⟨hset, hdata⟩ := finishUrl_spans url false (true, hosted)
  rw [h] at hset hdata
  refine ⟨hset, hdata, ?_⟩
  intro hport
  unfold finishUrl at h
  simp only [Bool.not_true, Bool.false_eq_true, if_false, Bool.false_and, hport, if_true] at h
  split_ifs at h with hlarge
  · cases h
  · cases h
    have hle : strtoul (url.drop (hosted.fieldData .port).off) ≤ 0xffff := Nat.not_lt.1 hlarge
    have hu16 := u16_of_lt (show strtoul (url.drop (hosted.fieldData .port).off) < 2 ^ 16 by omega)
    exact ⟨hu16, hu16.le.trans hle⟩

/-- A text without a server part is not accepted. -/
theorem httpParseHost_nil {foundAt : Bool} (h : u.fieldData .host = {}) :
    (httpParseHost url u foundAt).1 = false := by
  unfold httpParseHost
  rw [h]
  cases foundAt <;> rfl

/-- The steps of `http_parser_parse_url_` over a text in absolute form that it accepts. -/
theorem parseUrl_steps (hok : httpParserParseUrl .zero url false = (true, u))
    (hshort : url.length < 2 ^ 16) (hset : u.fieldSet .schema = true) :
    ∃ e hosted, ScannedUrl url e ∧ httpParseHost url e.u e.foundAt = (true, hosted) ∧
      finishUrl url false (true, hosted) = (true, u) := by
  unfold httpParserParseUrl at hok
  cases hscan : scanUrl url 0 (.init .zero false) with
  | error u =>
    rw [hscan] at hok
    cases hok
  | ok e =>
    rw [hscan] at hok
    dsimp only at hok
    -- without a scheme and a host nothing is left that could report a scheme
    have hbare : ¬ (e.u.fieldSet .schema = false ∧ e.u.fieldSet .host = false) := by
      rintro ⟨hschema, hhost⟩
      have hpart : parseHostPart url e = (true, e.u) := by
        unfold parseHostPart
        rw [hschema, hhost]
        rfl
      rw [hpart] at hok
      rw [(finishUrl_eq_ok hok).1, hschema] at hset
      exact Bool.noConfusion hset
    obtain _ | ⟨c, t⟩ := url
    · cases hscan
      exact absurd ⟨rfl, rfl⟩ hbare
    have hc := parse_spacesBeforeUrl c
    split_ifs at hc with hslash hletter
    · exact absurd (scan_originForm hscan hshort hc) hbare
    · have hhosted : parseHostPart (c :: t) e = httpParseHost (c :: t) e.u e.foundAt := by
        unfold parseHostPart
        rw [if_pos]
        rw [Bool.or_eq_true]
        by_contra hnone
        simp only [not_or, Bool.not_eq_true] at hnone
        exact hbare hnone
      rw [hhosted] at hok
      cases hres : httpParseHost (c :: t) e.u e.foundAt with
      | mk accepted hosted =>
        rw [hres] at hok
        cases accepted with
        | false => cases hok
        | true =>
          obtain ⟨-, hzero⟩ | hscanned := scan_url hscan hshort hc hletter
          · have hno : (httpParseHost (c :: t) e.u e.foundAt).1 = false := httpParseHost_nil hzero
            rw [hres] at hno
            cases hno
          · exact ⟨e, hosted, hscanned, hres, hok⟩
    · rw [scanUrl_dead hc] at hscan
      cases hscan

theorem partOf_congr {u' : HttpParserUrl} (hset : u.fieldSet = u'.fieldSet)
    (hdata : u.fieldData = u'.fieldData) (f : UrlField) : partOf url u f = partOf url u' f := by
  unfold partOf HttpParserUrl.text
  rw [hset, hdata]

/-- The text at the server part. -/
theorem ScannedUrl.drop_server (h : ScannedUrl url e) :
    url.drop (e.u.fieldData .host).off = urlServer url ++ urlRest url := by
  have hsplit : url = urlScheme url ++ (bytes "://" ++ urlAfter url) := by
    rw [← h.split]
    exact (List.takeWhile_append_dropWhile).symm
  have hafter : urlServer url ++ urlRest url = urlAfter url := List.takeWhile_append_dropWhile
  have hdrop : (urlScheme url ++ bytes "://" ++ urlAfter url).drop ((urlScheme url).length + 3) =
      urlAfter url := by
    apply List.drop_left'
    rw [List.length_append]
    rfl
  rw [List.append_assoc, ← hsplit] at hdrop
  rw [h.host, hafter]
  exact hdrop

/-- What is reported of an accepted text, but for host and port. -/
structure ReportedUrl (url : Bytes) (u : HttpParserUrl) : Prop where
  schema : partOf url u .schema = some (urlScheme url)
  path : partOf url u .path = nonNil (urlPath url)
  query : partOf url u .query = nonNil (urlQuery url)
  fragment : partOf url u .fragment = nonNil (urlFragment url)

/-- What `http_parser_parse_url_` reports of a text in absolute form that it accepts. -/
theorem ScannedUrl.reported (h : ScannedUrl url e) {hosted : HttpParserUrl}
    (hhost : httpParseHost url e.u e.foundAt = (true, hosted)) (hshort : url.length < 2 ^ 16)
    (hfinish : finishUrl url false (true, hosted) = (true, u)) :
    ReportedUrl url u ∧ (∃ t, partOf url u .host = some t ∧ IsHost t) ∧
      ∀ t, partOf url u .port = some t → IsPort t ∧ digitsValue t 0 = u.port := by
  obtain ⟨hset, hdata, hvalue⟩ := finishUrl_eq_ok hfinish
  have hpart : ∀ f, partOf url u f = partOf url hosted f := partOf_congr hset hdata
  obtain ⟨host, q, u₁, hat, hsame⟩ := httpParseHost_parts hhost h.drop_server
    (by rw [h.host]) hshort h.fieldSet_host
  have hnone : u₁.fieldSet .port = false := by
    rw [(hsame .port (by decide) (by decide)).1]
    exact h.port
  obtain ⟨hhostPart, hportAt, hothers⟩ := hat.parts hnone
  have hkeep : ∀ f, f ≠ .userinfo → f ≠ .host → f ≠ .port → partOf url u f = partOf url e.u f := by
    intro f huser hfhost hfport
    obtain ⟨hsetf, hdataf⟩ := hsame f huser hfhost
    rw [hpart, hothers f hfhost hfport]
    unfold partOf HttpParserUrl.text
    rw [hsetf, hdataf]
  refine ⟨⟨?_, ?_, ?_, ?_⟩, ⟨host, ?_, hat.isHost⟩, ?_⟩
  · rw [hkeep _ (by decide) (by decide) (by decide)]
    exact h.schema
  · rw [hkeep _ (by decide) (by decide) (by decide)]
    exact h.path
  · rw [hkeep _ (by decide) (by decide) (by decide)]
    exact h.query
  · rw [hkeep _ (by decide) (by decide) (by decide)]
    exact h.fragment
  · rw [hpart]
    exact hhostPart
  · intro port hport
    rw [hpart] at hport
    rw [hport] at hportAt
    cases hportAt with
    | some hdigits hportSet hbuf =>
      obtain ⟨heq, hle⟩ := hvalue hportSet
      refine ⟨hdigits, ?_⟩
      rw [hbuf, strtoul_digits hdigits fun c r hc => isNum_of_isServerChar (head_urlRest hc)] at heq
      split_ifs at heq <;> omega

/-- The parts of an accepted url are such parts. -/
theorem parseUrl_grammar (hok : httpParserParseUrl .zero url false = (true, u))
    (hshort : url.length < 2 ^ 16) (hset : u.fieldSet .schema = true) : UrlGrammar url u := by
  obtain ⟨e, hosted, hscanned, hhost, hfinish⟩ := parseUrl_steps hok hshort hset
  obtain ⟨hreported, hhostPart, hport⟩ := hscanned.reported hhost hshort hfinish
  refine ⟨⟨_, hreported.schema, hscanned.scheme_ne, ?_⟩, hhostPart, hport, ?_, ?_, ?_⟩
  · exact fun c hc => List.mem_takeWhile_imp hc
  · intro t ht
    rw [hreported.path] at ht
    obtain ⟨rfl, hne⟩ := nonNil_eq_some ht
    exact isPath_urlPath hne
  · intro t ht
    rw [hreported.query] at ht
    obtain ⟨rfl, hne⟩ := nonNil_eq_some ht
    exact isQuery_urlQuery hne
  · intro t ht
    rw [hreported.fragment] at ht
    obtain ⟨rfl, hne⟩ := nonNil_eq_some ht
    exact ⟨hne, head_urlFragment url, hscanned.fragment_chars⟩

/-! ### Parts that are put together -/

/-- A part behind its mark. -/
def markedBy (mark : UInt8) : Option Bytes → Bytes
  | none => []
  | some t => mark :: t

/-- A url put together from its parts. -/
def composeUrl (scheme server path : Bytes) (query fragment : Option Bytes) : Bytes :=
  scheme ++ (bytes "://" ++
    (server ++ (path ++ (markedBy (ascii '?') query ++ markedBy (ascii '#') fragment))))

/-- Parts that can be told apart when they are put together. -/
structure Composable (scheme server path : Bytes) (query fragment : Option Bytes) : Prop where
  scheme_ne : scheme ≠ []
  scheme : ∀ c ∈ scheme, isAlpha c = true
  server_ne : server ≠ []
  server : ∀ c ∈ server, isServerChar c = true
  path : IsPath path
  query : ∀ t, query = some t → IsQuery t
  fragment : ∀ t, fragment = some t → IsFragment t

/-- A run ends where another class of characters begins. -/
theorem takeWhile_append_stop {P : UInt8 → Bool} {a b : Bytes} (ha : ∀ c ∈ a, P c = true)
    (hb : ∀ c r, b = c :: r → P c = false) :
    (a ++ b).takeWhile P = a ∧ (a ++ b).dropWhile P = b := by
  rw [List.takeWhile_append_of_pos ha, List.dropWhile_append_of_pos ha]
  cases b with
  | nil => exact ⟨List.append_nil a, rfl⟩
  | cons c r =>
    have hc : ¬ P c = true := by
      rw [hb c r rfl]
      exact Bool.false_ne_true
    rw [List.takeWhile_cons_of_neg hc, List.dropWhile_cons_of_neg hc]
    exact ⟨List.append_nil a, rfl⟩

section Composed

variable {scheme server path : Bytes} {query fragment : Option Bytes}

/-- The scheme and what is behind it. -/
theorem Composable.split (h : Composable scheme server path query fragment) :
    urlScheme (composeUrl scheme server path query fragment) = scheme ∧
      urlAfter (composeUrl scheme server path query fragment) =
        server ++ (path ++ (markedBy (ascii '?') query ++ markedBy (ascii '#') fragment)) := by
  obtain ⟨htake, hdrop⟩ := takeWhile_append_stop (P := isAlpha) (b := bytes "://" ++
    (server ++ (path ++ (markedBy (ascii '?') query ++ markedBy (ascii '#') fragment)))) h.scheme (by
      rintro c r ⟨⟩
      decide)
  refine ⟨htake, ?_⟩
  unfold urlAfter composeUrl
  rw [hdrop]
  exact List.drop_left' rfl

/-- The server part and what is behind it. -/
theorem Composable.split_server (h : Composable scheme server path query fragment) :
    urlServer (composeUrl scheme server path query fragment) = server ∧
      urlRest (composeUrl scheme server path query fragment) =
        path ++ (markedBy (ascii '?') query ++ markedBy (ascii '#') fragment) := by
  unfold urlServer urlRest
  rw [h.split.2]
  apply takeWhile_append_stop h.server
  intro c r hcons
  have hhead := congrArg List.head? hcons
  rw [List.head?_append, h.path.head] at hhead
  cases hhead
  decide

/-- The path and what is behind it. -/
theorem Composable.split_path (h : Composable scheme server path query fragment) :
    urlPath (composeUrl scheme server path query fragment) = path ∧
      (urlRest (composeUrl scheme server path query fragment)).dropWhile isUrlChar =
        markedBy (ascii '?') query ++ markedBy (ascii '#') fragment := by
  unfold urlPath
  rw [h.split_server.2]
  apply takeWhile_append_stop h.path.chars
  intro c r hcons
  cases query with
  | some t =>
    cases hcons
    decide
  | none =>
    cases fragment with
    | some t =>
      cases hcons
      decide
    | none => cases hcons

theorem fragmentText_of_isFragment {t : Bytes} (h : IsFragment t) : fragmentText t = t := by
  cases t with
  | nil => rfl
  | cons c t =>
    apply fragmentText_cons
    rintro rfl
    exact h.head rfl

theorem nonNil_of_ne {t : Bytes} (h : t ≠ []) : nonNil t = some t := if_neg h

theorem nonNil_markedFragment (h : ∀ t, fragment = some t → IsFragment t) :
    nonNil (markedFragment (markedBy (ascii '#') fragment)) = fragment := by
  cases fragment with
  | none => rfl
  | some t =>
    have ht := h t rfl
    show nonNil (fragmentText t) = some t
    rw [fragmentText_of_isFragment ht, nonNil_of_ne ht.ne_nil]

/-- The query and the fragment. -/
theorem Composable.split_query (h : Composable scheme server path query fragment) :
    nonNil (urlQuery (composeUrl scheme server path query fragment)) = query ∧
      nonNil (urlFragment (composeUrl scheme server path query fragment)) = fragment := by
  unfold urlQuery urlFragment
  rw [h.split_path.2]
  cases query with
  | some t =>
    have ht := h.query t rfl
    obtain ⟨htake, hdrop⟩ := takeWhile_append_stop (b := markedBy (ascii '#') fragment) ht.chars (by
      intro c r hcons
      cases fragment with
      | none => cases hcons
      | some s =>
        cases hcons
        decide)
    constructor
    · show nonNil ((t ++ markedBy (ascii '#') fragment).takeWhile isQueryChar) = some t
      rw [htake, nonNil_of_ne ht.ne_nil]
    · show nonNil (markedFragment ((t ++ markedBy (ascii '#') fragment).dropWhile isQueryChar)) =
        fragment
      rw [hdrop, nonNil_markedFragment h.fragment]
  | none =>
    cases fragment with
    | none => exact ⟨rfl, rfl⟩
    | some s => exact ⟨rfl, nonNil_markedFragment h.fragment⟩

/-! ### The automaton over the parts -/

theorem foldl_stay {s : UrlState} {P : UInt8 → Bool} {t : Bytes}
    (hP : ∀ c, P c = true → parseUrlChar s c = s) (ht : ∀ c ∈ t, P c = true) :
    t.foldl parseUrlChar s = s := by
  induction t with
  | nil => rfl
  | cons c t ih =>
    simp only [List.mem_cons, forall_eq_or_imp] at ht
    rw [List.foldl_cons, hP c ht.1, ih ht.2]

/-- A part whose first character leads into a state in which the automaton stays. -/
theorem foldl_part {s r : UrlState} {P : UInt8 → Bool} {t : Bytes}
    (hP : ∀ c, P c = true → parseUrlChar r c = r) (hne : t ≠ []) (ht : ∀ c ∈ t, P c = true)
    (hfirst : ∀ c, t.head? = some c → parseUrlChar s c = r) : t.foldl parseUrlChar s = r := by
  obtain ⟨c, t, rfl⟩ := List.exists_cons_of_ne_nil hne
  simp only [List.mem_cons, forall_eq_or_imp] at ht
  rw [List.foldl_cons, hfirst c rfl]
  exact foldl_stay hP ht.2

theorem head?_mem {t : Bytes} {c : UInt8} (h : t.head? = some c) : c ∈ t := List.mem_of_head? h

/-- A character of the server part that the automaton accepts. -/
theorem parseServerChar_of_isUserinfoChar {c : UInt8} (h : isUserinfoChar c = true) :
    parseServerChar c = .server := by
  have hslash : c ≠ ascii '/' := by
    rintro rfl
    exact absurd h (by decide)
  have hquery : c ≠ ascii '?' := by
    rintro rfl
    exact absurd h (by decide)
  have hat : c ≠ ascii '@' := by
    rintro rfl
    exact absurd h (by decide)
  unfold parseServerChar
  rw [if_neg hslash, if_neg hquery, if_neg hat, h]
  rfl

/-- The automaton over the query and the fragment. -/
theorem foldl_marked {s : UrlState} (hquery : ∀ t, query = some t → IsQuery t)
    (hfragment : ∀ t, fragment = some t → IsFragment t) (hs : s = .path) :
    (markedBy (ascii '?') query ++ markedBy (ascii '#') fragment).foldl parseUrlChar s ≠ .dead := by
  have hfrag : ∀ s, s ≠ .dead → parseUrlChar s (ascii '#') = .fragmentStart →
      (markedBy (ascii '#') fragment).foldl parseUrlChar s ≠ .dead := by
    intro s hs hmark
    cases fragment with
    | none => exact hs
    | some t =>
      have ht := hfragment t rfl
      show (ascii '#' :: t).foldl parseUrlChar s ≠ .dead
      rw [List.foldl_cons, hmark]
      have hend := foldl_part (s := .fragmentStart) (r := .fragment) (P := isFragmentChar)
        (fun c hc => by rw [parse_fragment, if_pos hc]) ht.ne_nil ht.chars (by
          intro c hc
          have hne : c ≠ ascii '#' := by
            rintro rfl
            exact ht.head hc
          rw [parse_fragmentStart, if_neg hne, if_pos (ht.chars c (head?_mem hc))])
      rw [hend]
      decide
  subst hs
  cases query with
  | none => exact hfrag .path (by decide) (by decide)
  | some t =>
    have ht := hquery t rfl
    have hmark : parseUrlChar .path (ascii '?') = .queryStringStart := by decide
    rw [List.foldl_append]
    show (markedBy (ascii '#') fragment).foldl parseUrlChar
      ((ascii '?' :: t).foldl parseUrlChar .path) ≠ .dead
    have hend := foldl_part (s := .queryStringStart) (r := .queryString) (P := isQueryChar)
      (fun c hc => by rw [parse_queryString, if_pos hc]) ht.ne_nil ht.chars (by
        intro c hc
        rw [parse_queryStringStart, if_pos (ht.chars c (head?_mem hc))])
    rw [List.foldl_cons, hmark, hend]
    exact hfrag .queryString (by decide) (by decide)

/-- The automaton survives a url that is put together. -/
theorem Composable.foldl (h : Composable scheme server path query fragment)
    (hserver : ∀ c ∈ server, isUserinfoChar c = true) :
    (composeUrl scheme server path query fragment).foldl parseUrlChar .spacesBeforeUrl ≠ .dead := by
  have hscheme := foldl_part (s := .spacesBeforeUrl) (r := .schema) (P := isAlpha)
    (fun c hc => by rw [parse_schema, if_pos hc]) h.scheme_ne h.scheme (by
      intro c hc
      have halpha := h.scheme c (head?_mem hc)
      have hno : ¬ (c = ascii '/' || c = ascii '*') = true := by
        rw [Bool.or_eq_true, decide_eq_true_iff, decide_eq_true_iff]
        rintro (rfl | rfl) <;> exact absurd halpha (by decide)
      rw [parse_spacesBeforeUrl, if_neg hno, if_pos halpha])
  have hslashes : (bytes "://").foldl parseUrlChar .schema = .serverStart := by decide
  have hserverEnd := foldl_part (s := .serverStart) (r := .server) (P := isUserinfoChar)
    (fun c hc => by rw [parse_server, parseServerChar_of_isUserinfoChar hc]) h.server_ne hserver (by
      intro c hc
      rw [parse_serverStart, parseServerChar_of_isUserinfoChar (hserver c (head?_mem hc))])
  have hpathNe : path ≠ [] := by
    rintro rfl
    cases h.path.head
  have hpath := foldl_part (s := .server) (r := .path) (P := isUrlChar)
    (fun c hc => by rw [parse_path, if_pos hc]) hpathNe h.path.chars (by
      intro c hc
      rw [h.path.head] at hc
      cases hc
      decide)
  unfold composeUrl
  rw [List.foldl_append, hscheme, List.foldl_append, hslashes, List.foldl_append, hserverEnd,
    List.foldl_append, hpath]
  exact foldl_marked h.query h.fragment rfl

/-! ### The server part that is put together -/

theorem isUserinfoChar_of_isHostChar {c : UInt8} (h : isHostChar c = true) :
    isUserinfoChar c = true := by
  unfold isHostChar at h
  unfold isUserinfoChar
  rw [Bool.or_eq_true] at h
  obtain h | h := h
  · rw [h]
    rfl
  · have hmarks : ∀ c ∈ bytes ".-_", isMark c = true := by decide +kernel
    rw [decide_eq_true_iff] at h
    rw [hmarks c h, Bool.or_true, Bool.true_or]

theorem isHostChar_of_isNum {c : UInt8} (h : isNum c = true) : isHostChar c = true := by
  unfold isHostChar isAlphanum
  rw [h, Bool.or_true, Bool.true_or]

/-- A character of an IPv6 literal other than the colon. -/
theorem isHostChar_of_isV6Char {c : UInt8} (h : isV6Char c = true) (hcolon : c ≠ ascii ':') :
    isHostChar c = true := by
  unfold isV6Char isHex at h
  rw [Bool.or_eq_true, Bool.or_eq_true, decide_eq_true_iff, decide_eq_true_iff] at h
  obtain (h | h) | h := h
  · rw [Bool.or_eq_true] at h
    obtain h | h := h
    · exact isHostChar_of_isNum h
    · have halpha : isAlpha c = true := by
        unfold isAlpha
        rw [Bool.and_eq_true, decide_eq_true_iff, decide_eq_true_iff] at h ⊢
        exact ⟨h.1, UInt8.le_trans h.2 (show ascii 'f' ≤ ascii 'z' by decide)⟩
      unfold isHostChar isAlphanum
      rw [halpha]
      rfl
  · exact absurd h hcolon
  · rw [h]
    decide

/-- The server part is a host, a colon and a port. -/
def composeServer (host port : Bytes) : Bytes := host ++ ascii ':' :: port

/-- Which characters are in a server part that is put together. -/
theorem mem_composeServer {host port : Bytes} (hhost : IsHost host) (hport : IsPort port) {c : UInt8}
    (hc : c ∈ composeServer host port) : isHostChar c = true ∨ c = ascii ':' := by
  obtain hc | hc := List.mem_append.1 hc
  · obtain hname | hv6 := hhost.chars
    · exact Or.inl (hname c hc)
    · by_cases hcolon : c = ascii ':'
      · exact Or.inr hcolon
      · exact Or.inl (isHostChar_of_isV6Char (hv6 c hc) hcolon)
  · obtain rfl | hc := List.mem_cons.1 hc
    · exact Or.inr rfl
    · exact Or.inl (isHostChar_of_isNum (hport.digits c hc))

/-- A character that is neither in a host nor a colon. -/
theorem not_mem_composeServer {host port : Bytes} (hhost : IsHost host) (hport : IsPort port)
    {c : UInt8} (hno : isHostChar c = false) (hcolon : c ≠ ascii ':') :
    c ∉ composeServer host port := by
  intro hc
  obtain hchar | hc := mem_composeServer hhost hport hc
  · rw [hno] at hchar
    exact Bool.noConfusion hchar
  · exact hcolon hc

theorem isServerChar_of_composeServer {host port : Bytes} (hhost : IsHost host)
    (hport : IsPort port) : ∀ c ∈ composeServer host port, isServerChar c = true := by
  intro c hc
  by_contra hno
  rw [Bool.not_eq_true] at hno
  unfold isServerChar at hno
  rw [Bool.and_eq_false_iff, bne_eq_false_iff_eq, bne_eq_false_iff_eq] at hno
  obtain rfl | rfl := hno
  · exact not_mem_composeServer hhost hport (by decide) (by decide) hc
  · exact not_mem_composeServer hhost hport (by decide) (by decide) hc

theorem isUserinfoChar_of_composeServer {host port : Bytes} (hhost : IsHost host)
    (hport : IsPort port) : ∀ c ∈ composeServer host port, isUserinfoChar c = true := by
  intro c hc
  obtain hchar | rfl := mem_composeServer hhost hport hc
  · exact isUserinfoChar_of_isHostChar hchar
  · decide

/-! ### Put together and taken apart -/

/-- The steps of `http_parser_parse_url_` over a url that is put together. -/
theorem Composable.scanned (h : Composable scheme server path query fragment)
    (hserver : ∀ c ∈ server, isUserinfoChar c = true)
    (hshort : (composeUrl scheme server path query fragment).length < 2 ^ 16) :
    ∃ e, scanUrl (composeUrl scheme server path query fragment) 0 (.init .zero false) = .ok e ∧
      ScannedUrl (composeUrl scheme server path query fragment) e := by
  have hfold : (composeUrl scheme server path query fragment).foldl parseUrlChar
      (UrlScan.init .zero false).s ≠ .dead := h.foldl hserver
  obtain ⟨e, hscan⟩ := exists_scan (p := 0) hfold
  refine ⟨e, hscan, ?_⟩
  obtain ⟨c, t, hct⟩ := List.exists_cons_of_ne_nil h.scheme_ne
  have hurl : composeUrl scheme server path query fragment = c :: (t ++ (bytes "://" ++
      (server ++ (path ++ (markedBy (ascii '?') query ++ markedBy (ascii '#') fragment))))) := by
    unfold composeUrl
    rw [hct, List.cons_append]
  have hletter : isAlpha c = true := h.scheme c (by rw [hct]; exact List.mem_cons_self)
  have hstart : parseUrlChar .spacesBeforeUrl c = .schema := by
    have hno : ¬ (c = ascii '/' || c = ascii '*') = true := by
      rw [Bool.or_eq_true, decide_eq_true_iff, decide_eq_true_iff]
      rintro (rfl | rfl) <;> exact absurd hletter (by decide)
    rw [parse_spacesBeforeUrl, if_neg hno, if_pos hletter]
  have hne := h.split_server.1
  rw [hurl] at hscan hshort hne ⊢
  obtain ⟨hnil, -⟩ | hscanned := scan_url hscan hshort hstart hletter
  · exact absurd (hne.symm.trans hnil) h.server_ne
  · exact hscanned

/-- The state of the loop of `http_parse_host_` over the server part of a url that is put together. -/
theorem httpParseHost_of_scanned {host port : Bytes} (hscanned : ScannedUrl url e)
    (hserver : urlServer url = composeServer host port) (hhost : IsHost host) (hport : IsPort port) :
    httpParseHost url e.u e.foundAt =
      ((hostLoop (composeServer host port) (e.u.fieldData .host).off .hostStart e.u.clearHost).1.any
          HostState.final,
        (hostLoop (composeServer host port) (e.u.fieldData .host).off .hostStart
          e.u.clearHost).2) := by
  have hat : e.foundAt = false := by
    rw [hscanned.foundAt, hserver, decide_eq_false_iff_not]
    exact not_mem_composeServer hhost hport (by decide) (by decide)
  have hlen : (e.u.fieldData .host).len = (composeServer host port).length := by
    rw [hscanned.host, hserver]
  unfold httpParseHost
  dsimp only
  rw [hscanned.drop_server, hserver, hlen, List.take_left, hat]
  rfl

/-- What is reported of a text whose server part is a name and a port. -/
theorem parseUrl_of_server {host port : Bytes}
    (hscan : scanUrl url 0 (.init .zero false) = .ok e) (hscanned : ScannedUrl url e)
    (hserver : urlServer url = composeServer host port) (hhost : IsHost host)
    (hname : ∀ c ∈ host, isHostChar c = true) (hport : IsPort port)
    (hvalue : digitsValue port 0 ≤ 0xffff) (hshort : url.length < 2 ^ 16) :
    ∃ u', httpParserParseUrl .zero url false = (true, u') ∧ ReportedUrl url u' ∧
      partOf url u' .host = some host ∧ partOf url u' .port = some port ∧
      u'.port = digitsValue port 0 := by
  have hdrop := hscanned.drop_server
  rw [hserver, composeServer, List.append_assoc, List.cons_append] at hdrop
  have hdropPort : url.drop ((e.u.fieldData .host).off + host.length + 1) = port ++ urlRest url :=
    drop_of_cons (drop_of_append hdrop)
  have hlen := congrArg List.length hdrop
  simp only [List.length_drop, List.length_append, List.length_cons] at hlen
  have hset : e.u.clearHost.fieldSet .host = true := hscanned.fieldSet_host
  have hzero : (e.u.clearHost.fieldData .host).len = 0 := by
    rw [clearHost_fieldData, if_pos rfl]
  generalize hoff : (e.u.fieldData .host).off = off at hdrop hdropPort hlen
  -- the host loop takes the name up to the colon, and the port behind it
  have hloop := hostLoop_compose (p := off) hhost.ne_nil hname hport (by omega) hset hzero
  have hparse : httpParseHost url e.u e.foundAt = (true, (e.u.clearHost.put .host off
      host.length).put .port (off + host.length + 1) port.length) := by
    rw [httpParseHost_of_scanned hscanned hserver hhost hport, hoff, composeServer, hloop]
    rfl
  generalize hhosted : (e.u.clearHost.put .host off host.length).put .port
    (off + host.length + 1) port.length = hosted at hparse
  have hputs : Puts url .host (some host) e.u.clearHost (e.u.clearHost.put .host off host.length) := by
    apply puts_put
    rw [hdrop, List.take_left]
  have hputs' : Puts url .port (some port) (e.u.clearHost.put .host off host.length) hosted := by
    rw [← hhosted]
    apply puts_put
    rw [hdropPort, List.take_left]
  -- `strtoul` stops at the end of the port
  have hstrtoul : strtoul (url.drop (hosted.fieldData .port).off) = digitsValue port 0 := by
    rw [← hhosted, put_fieldData, if_pos rfl]
    show strtoul (url.drop (off + host.length + 1)) = digitsValue port 0
    rw [hdropPort, strtoul_digits hport fun c r hc => isNum_of_isServerChar (head_urlRest hc)]
    exact if_neg (by omega)
  have hportSet : hosted.fieldSet .port = true := by
    rw [← hhosted, put_fieldSet, if_pos rfl]
  have hfinish : finishUrl url false (true, hosted) =
      (true, { hosted with port := u16 (digitsValue port 0) }) := by
    unfold finishUrl
    simp only [Bool.not_true, Bool.false_eq_true, if_false, Bool.false_and, hportSet, if_true, hstrtoul]
    rw [if_neg (by omega)]
  refine ⟨_, ?_, (hscanned.reported hparse hshort hfinish).1, ?_, ?_, ?_⟩
  · unfold httpParserParseUrl parseHostPart
    rw [hscan]
    dsimp only
    rw [hscanned.fieldSet_host, Bool.or_true, if_pos rfl, hparse]
    exact hfinish
  · show partOf url hosted .host = some host
    rw [hputs'.partOf_eq (by decide)]
    exact hputs.part
  · exact hputs'.part
  · exact u16_of_lt (by omega)

/-- A url put together with a name and a port is taken apart again. -/
theorem parseUrl_compose {host port : Bytes}
    (h : Composable scheme (composeServer host port) path query fragment) (hhost : IsHost host)
    (hname : ∀ c ∈ host, isHostChar c = true) (hport : IsPort port)
    (hvalue : digitsValue port 0 ≤ 0xffff)
    (hurl : url = composeUrl scheme (composeServer host port) path query fragment)
    (hshort : url.length < 2 ^ 16) :
    ∃ u', httpParserParseUrl .zero url false = (true, u') ∧ ReportedUrl url u' ∧
      partOf url u' .host = some host ∧ partOf url u' .port = some port ∧
      u'.port = digitsValue port 0 := by
  subst hurl
  obtain ⟨e, hscan, hscanned⟩ := h.scanned (isUserinfoChar_of_composeServer hhost hport) hshort
  exact parseUrl_of_server hscan hscanned h.split_server.1 hhost hname hport hvalue hshort

/-- A url put together with a host in which there is a colon is not accepted. -/
theorem parseUrl_colon {host port : Bytes}
    (h : Composable scheme (composeServer host port) path query fragment) (hhost : IsHost host)
    (hcolon : ascii ':' ∈ host) (hport : IsPort port)
    (hurl : url = composeUrl scheme (composeServer host port) path query fragment)
    (hshort : url.length < 2 ^ 16) (hset : u.fieldSet .schema = true) :
    httpParserParseUrl .zero url false ≠ (true, u) := by
  subst hurl
  intro hok
  obtain ⟨e, hosted, hscanned, hparse, -⟩ := parseUrl_steps hok hshort hset
  rw [httpParseHost_of_scanned hscanned h.split_server.1 hhost hport, hostLoop_colons rfl] at hparse
  · cases hparse
  · exact not_mem_composeServer hhost hport (by decide) (by decide)
  · have hcount : 0 < host.count (ascii ':') := List.count_pos_iff.2 hcolon
    show 2 ≤ (composeServer host port).count (ascii ':')
    rw [composeServer, List.count_append, List.count_cons_self]
    omega

end Composed

/-! ### What is submitted -/

/-- The value of a name in a submitted list. -/
def nvValue (nvs : List Nv) (name : Bytes) : Bytes :=
  ((nvs.find? fun nv => nv.name == name).map Nv.value).getD []

/-- `:scheme`, `://`, `:authority` and `:path` of a submitted list, put together. -/
def composedUrl (nvs : List Nv) : Bytes :=
  nvValue nvs (bytes ":scheme") ++ (bytes "://" ++
    (nvValue nvs (bytes ":authority") ++ nvValue nvs (bytes ":path")))

/-- The number of the port, 80 if it is absent. -/
def portNumber (u : HttpParserUrl) : ℕ := if u.fieldSet .port then u.port else 80

/-- Two urls have the same parts, where an absent port is read as `80` and an absent path as `/`. -/
structure SameParts (url : Bytes) (u : HttpParserUrl) (url' : Bytes) (u' : HttpParserUrl) : Prop where
  scheme : partOf url' u' .schema = partOf url u .schema
  host : partOf url' u' .host = partOf url u .host
  port : portText url' u' = portText url u
  number : portNumber u' = portNumber u
  path : (partOf url' u' .path).getD (bytes "/") = (partOf url u .path).getD (bytes "/")
  query : partOf url' u' .query = partOf url u .query
  fragment : partOf url' u' .fragment = partOf url u .fragment

/-- The submitted list stands for the url of the request. -/
def Recomposes (header : Header) (url : Bytes) (nvs : List Nv) : Prop :=
  ∃ u', httpParserParseUrl .zero (composedUrl nvs) false = (true, u') ∧
    SameParts url (requestUrl header url) (composedUrl nvs) u'

/-- The pseudo-headers come before the fields. -/
theorem composedUrl_eq (hnvs : requestNvs header url = .ok nvs) (hmethod : header.isConnect = false) :
    composedUrl nvs = schemeText url (requestUrl header url) ++ (bytes "://" ++
      (authorityText header url (requestUrl header url) ++ pathText url (requestUrl header url))) := by
  obtain ⟨-, rfl⟩ := requestNvs_eq_ok.1 hnvs
  have hmethodName : (bytes ":method" == bytes ":scheme") = false := by decide
  have hpathName : (bytes ":path" == bytes ":scheme") = false := by decide
  have hmethodName' : (bytes ":method" == bytes ":authority") = false := by decide
  have hpathName' : (bytes ":path" == bytes ":authority") = false := by decide
  have hschemeName : (bytes ":scheme" == bytes ":authority") = false := by decide
  have hmethodName'' : (bytes ":method" == bytes ":path") = false := by decide
  unfold composedUrl nvValue pseudoNvs
  simp only [hmethod, Bool.false_eq_true, if_false, List.cons_append, List.find?_cons, hmethodName,
    hpathName, hmethodName', hpathName', hschemeName, hmethodName'', beq_self_eq_true, Option.map_some,
    Option.getD_some]

theorem length_pathText (hu : u.Inside url.length) : (pathText url u).length = pathLen u := by
  unfold pathText pathLen
  rw [List.length_append, List.length_append, length_basePath hu, length_markedText hu,
    length_markedText hu]

theorem length_authorityText (hu : u.Inside url.length) :
    (authorityText header url u).length = authorityLen header u := by
  unfold authorityText authorityLen
  by_cases hzero : u.lenOf .host = 0
  · rw [if_pos hzero, if_pos hzero]
  · rw [if_neg hzero, if_neg hzero, List.length_append, List.length_append, length_textOf hu,
      length_portText hu]
    rfl

theorem length_schemeText (hu : u.Inside url.length) (h : u.lenOf .schema < 24) :
    (schemeText url u).length < 24 := by
  unfold schemeText
  split_ifs with hzero
  · decide
  · rw [length_textOf hu]
    exact h

/-- A request that fits is short. -/
theorem length_composedUrl (hnvs : requestNvs header url = .ok nvs)
    (hmethod : header.isConnect = false) : (composedUrl nvs).length < 2 ^ 16 := by
  obtain ⟨hfits, -⟩ := requestNvs_eq_ok.1 hnvs
  have hu : (requestUrl header url).Inside url.length := parseUrl_inside url header.isConnect
  have hscheme := length_schemeText hu hfits.schma
  have hauthority := hfits.authority
  have hpath := hfits.path
  have hslashes : (bytes "://").length = 3 := rfl
  rw [composedUrl_eq hnvs hmethod, List.length_append, List.length_append, List.length_append,
    length_authorityText hu, length_pathText hu, hslashes]
  omega

/-! ### The parts of the submitted request -/

theorem textOf_of_partOf {f : UrlField} {t : Bytes} (h : partOf url u f = some t) :
    textOf url u f = t := by
  unfold partOf at h
  split_ifs at h with hset
  rw [textOf, if_pos hset]
  exact Option.some.inj h

theorem lenOf_of_partOf (hu : u.Inside url.length) {f : UrlField} {t : Bytes}
    (h : partOf url u f = some t) : u.lenOf f = t.length := by
  rw [← length_textOf hu f, textOf_of_partOf h]

theorem markedText_eq (mark : UInt8) (f : UrlField) :
    markedText mark url u f = markedBy mark (partOf url u f) := by
  unfold markedText partOf
  split_ifs <;> rfl

theorem basePath_eq_getD (hu : u.Inside url.length) (hpath : ∀ t, partOf url u .path = some t → IsPath t) :
    basePath url u = (partOf url u .path).getD (bytes "/") := by
  unfold basePath
  cases hpart : partOf url u .path with
  | none =>
    have hset : ¬ u.fieldSet .path = true := by
      intro hset
      rw [partOf, if_pos hset] at hpart
      cases hpart
    rw [if_pos (show u.lenOf .path = 0 from if_neg hset)]
    rfl
  | some t =>
    have hlen := lenOf_of_partOf hu hpart
    have hset : u.fieldSet .path = true := by
      by_contra hset
      rw [partOf, if_neg hset] at hpart
      cases hpart
    have htext := textOf_of_partOf hpart
    rw [textOf, if_pos hset] at htext
    have hne : t ≠ [] := by
      rintro rfl
      cases (hpath [] hpart).head
    rw [if_neg (by rw [hlen]; exact fun h => hne (List.length_eq_zero_iff.1 h)), htext]
    rfl

theorem IsPath.getD (hpath : ∀ t, partOf url u .path = some t → IsPath t) :
    IsPath ((partOf url u .path).getD (bytes "/")) := by
  cases hpart : partOf url u .path with
  | none => exact ⟨rfl, by decide +kernel⟩
  | some t => exact hpath t hpart

/-- The port of a url, which may be absent. -/
theorem UrlGrammar.isPort_portText (h : UrlGrammar url u) :
    IsPort (portText url u) ∧ digitsValue (portText url u) 0 = portNumber u := by
  unfold portText portNumber
  split_ifs with hset
  · exact h.port _ (by rw [partOf, if_pos hset])
  · exact ⟨⟨by decide, by decide +kernel⟩, by decide⟩

/-- The submitted url is put together from the parts. -/
theorem UrlGrammar.composed (h : UrlGrammar url u) (hu : u.Inside url.length) :
    ∃ scheme host, partOf url u .schema = some scheme ∧ partOf url u .host = some host ∧ IsHost host ∧
      Composable scheme (composeServer host (portText url u))
        ((partOf url u .path).getD (bytes "/")) (partOf url u .query) (partOf url u .fragment) ∧
      schemeText url u ++ (bytes "://" ++ (authorityText header url u ++ pathText url u)) =
        composeUrl scheme (composeServer host (portText url u))
          ((partOf url u .path).getD (bytes "/")) (partOf url u .query) (partOf url u .fragment) := by
  obtain ⟨scheme, hscheme, hschemeNe, hletters⟩ := h.scheme
  obtain ⟨host, hhost, hisHost⟩ := h.host
  have hport := h.isPort_portText.1
  have hschemeLen : u.lenOf .schema ≠ 0 := by
    rw [lenOf_of_partOf hu hscheme]
    exact fun hzero => hschemeNe (List.length_eq_zero_iff.1 hzero)
  have hhostLen : u.lenOf .host ≠ 0 := by
    rw [lenOf_of_partOf hu hhost]
    exact fun hzero => hisHost.ne_nil (List.length_eq_zero_iff.1 hzero)
  refine ⟨scheme, host, hscheme, hhost, hisHost, ⟨hschemeNe, hletters, ?_, ?_, ?_, h.query, h.fragment⟩, ?_⟩
  · exact List.append_ne_nil_of_left_ne_nil hisHost.ne_nil _
  · exact isServerChar_of_composeServer hisHost hport
  · exact IsPath.getD h.path
  · have hauthority : authorityText header url u =
        composeServer host (portText url u) := by
      unfold authorityText composeServer
      rw [if_neg hhostLen, textOf_of_partOf hhost, List.append_assoc]
      rfl
    have hpath : pathText url u = (partOf url u .path).getD (bytes "/") ++
        (markedBy (ascii '?') (partOf url u .query) ++
          markedBy (ascii '#') (partOf url u .fragment)) := by
      unfold pathText
      rw [basePath_eq_getD hu h.path, markedText_eq, markedText_eq, List.append_assoc]
    rw [schemeText, if_neg hschemeLen, textOf_of_partOf hscheme, hauthority, hpath]
    rfl

/-- The port of an accepted url has 16 bits. -/
theorem portNumber_le (hok : httpParserParseUrl .zero url false = (true, u)) :
    portNumber u ≤ 0xffff := by
  unfold httpParserParseUrl at hok
  cases hscan : scanUrl url 0 (.init .zero false) with
  | error u =>
    rw [hscan] at hok
    cases hok
  | ok e =>
    rw [hscan] at hok
    dsimp only at hok
    cases hpart : parseHostPart url e with
    | mk accepted hosted =>
      rw [hpart] at hok
      cases accepted with
      | false => cases hok
      | true =>
        obtain ⟨hset, -, hvalue⟩ := finishUrl_eq_ok hok
        unfold portNumber
        split_ifs with hport
        · rw [hset] at hport
          exact (hvalue hport).2
        · decide

/-- A port that is there. -/
theorem port_of_partOf {t : Bytes} (h : partOf url u .port = some t) :
    portText url u = t ∧ portNumber u = u.port := by
  unfold partOf at h
  split_ifs at h with hset
  rw [portText, portNumber, if_pos hset, if_pos hset]
  exact ⟨Option.some.inj h, rfl⟩

/-- The parts of a url that has the same parts as an accepted short one. -/
theorem SameParts.grammar {url' : Bytes} {u' : HttpParserUrl} (h : SameParts url u url' u')
    (h' : UrlGrammar url' u') : UrlGrammar url u := by
  refine ⟨?_, ?_, ?_, ?_, ?_, ?_⟩
  · rw [← h.scheme]
    exact h'.scheme
  · rw [← h.host]
    exact h'.host
  · intro t ht
    obtain ⟨htext, hnumber⟩ := port_of_partOf ht
    obtain ⟨hport, hvalue⟩ := h'.isPort_portText
    rw [h.port, htext] at hport hvalue
    rw [h.number, hnumber] at hvalue
    exact ⟨hport, hvalue⟩
  · intro t ht
    have hpath := IsPath.getD h'.path
    rw [h.path, ht] at hpath
    exact hpath
  · intro t ht
    rw [← h.query] at ht
    exact h'.query t ht
  · intro t ht
    rw [← h.fragment] at ht
    exact h'.fragment t ht

/-- The submitted request stands for the url it was made from iff the reported host has no colon and,
in a text whose offsets can wrap, the reported parts are still parts of a url. -/
theorem recomposes_iff (hnvs : requestNvs header url = .ok nvs) (hmethod : header.isConnect = false)
    (haccepted : (httpParserParseUrl .zero url false).1 = true)
    (habsolute : (requestUrl header url).fieldSet .schema = true) :
    Recomposes header url nvs ↔
      (url.length < 2 ^ 16 ∨ UrlGrammar url (requestUrl header url)) ∧
        ∀ host, partOf url (requestUrl header url) .host = some host → ascii ':' ∉ host := by
  have hparse : httpParserParseUrl .zero url false = (true, requestUrl header url) := by
    unfold requestUrl
    rw [hmethod]
    exact Prod.ext haccepted rfl
  have hu : (requestUrl header url).Inside url.length := parseUrl_inside url header.isConnect
  have hcomposed := composedUrl_eq hnvs hmethod
  have hshort := length_composedUrl hnvs hmethod
  constructor
  · rintro ⟨u', hok, hsame⟩
    have hset' : u'.fieldSet .schema = true := by
      by_contra hset'
      have hscheme := hsame.scheme
      rw [partOf, partOf, if_neg hset', if_pos habsolute] at hscheme
      cases hscheme
    have hgrammar := hsame.grammar (parseUrl_grammar hok hshort hset')
    -- with a colon in its host the composed url is not accepted
    refine ⟨Or.inr hgrammar, ?_⟩
    intro host hhost hcolon
    obtain ⟨scheme, host', -, hhost', hisHost, hparts, heq⟩ := hgrammar.composed hu
    rw [hhost] at hhost'
    cases hhost'
    exact parseUrl_colon hparts hisHost hcolon hgrammar.isPort_portText.1 (hcomposed.trans heq)
      hshort hset' hok
  · rintro ⟨hurl, hcolon⟩
    have hgrammar : UrlGrammar url (requestUrl header url) := by
      obtain hurl | hurl := hurl
      · exact parseUrl_grammar hparse hurl habsolute
      · exact hurl
    obtain ⟨scheme, host, hscheme, hhost, hisHost, hparts, heq⟩ := hgrammar.composed hu
    obtain ⟨hport, hvalue⟩ := hgrammar.isPort_portText
    -- without a colon the host is a name, and the composed text is read back
    have hname : ∀ c ∈ host, isHostChar c = true := by
      intro c hc
      obtain hname | hv6 := hisHost.chars
      · exact hname c hc
      · exact isHostChar_of_isV6Char (hv6 c hc) fun h => hcolon host hhost (h ▸ hc)
    have hle := portNumber_le hparse
    rw [← hvalue] at hle
    obtain ⟨u', hok, hreported, hhost', hport', hnumber⟩ := parseUrl_compose hparts hisHost hname
      hport hle (hcomposed.trans heq) hshort
    obtain ⟨htext, hport_u'⟩ := port_of_partOf hport'
    have hurl := hcomposed.trans heq
    refine ⟨u', hok, ?_, hhost'.trans hhost.symm, htext, ?_, ?_, ?_, ?_⟩
    · rw [hreported.schema, hscheme, hurl, hparts.split.1]
    · rw [hport_u', hnumber, hvalue]
    · rw [hreported.path, hurl, hparts.split_path.1,
        nonNil_of_ne fun hnil => Option.some_ne_none _ (hparts.path.head.symm.trans (by rw [hnil]; rfl))]
      rfl
    · rw [hreported.query, hurl, hparts.split_query.1]
    · rw [hreported.fragment, hurl, hparts.split_query.2]

/-- A request for `http://h:8?q#f`. -/
def plainGet : Header where
  method := bytes "GET"
  url := some (bytes "http://h:8?q#f")

/-- The url comes back with its port, its query and its fragment. -/
theorem recomposes_plainGet :
    Recomposes plainGet (bytes "http://h:8?q#f") (pseudoNvs plainGet (bytes "http://h:8?q#f")) :=
  (recomposes_iff (by rfl) (by decide) (by decide +kernel) (by decide +kernel)).2
    ⟨Or.inl (by decide), by decide +kernel⟩

/-- A request for `http://[::1]/`. -/
def v6Get : Header where
  method := bytes "GET"
  url := some (bytes "http://[::1]/")

/-- Without its brackets an IPv6 literal is not accepted. -/
theorem not_recomposes : ¬ ∀ header url nvs, requestNvs header url = .ok nvs →
    header.isConnect = false → (httpParserParseUrl .zero url false).1 = true →
    (requestUrl header url).fieldSet .schema = true → Recomposes header url nvs := by
  intro h
  obtain ⟨u', hok, -⟩ := h v6Get (bytes "http://[::1]/") (pseudoNvs v6Get (bytes "http://[::1]/"))
    (by rfl) (by decide) (by decide +kernel) (by decide +kernel)
  have hno : (httpParserParseUrl .zero
      (composedUrl (pseudoNvs v6Get (bytes "http://[::1]/"))) false).1 = false := by
    decide +kernel
  rw [hok] at hno
  exact Bool.noConfusion hno

end H2ClientProxy
