import H2ClientProxy.Equiv.Url
import H2ClientProxy.HttpParser.Requests
import H2ClientProxy.RelayHttp2.Request

/-!
# When a request fits into the arrays, and what is submitted then

* `RequestFits`: the bounds on the lengths of the parts of the url, of the `Host` field and on the
  number of fields.
* `requestNvs_eq_ok`: `relay_send_request` stays inside its arrays iff the request fits; it then submits
  the pseudo-headers and the fields that it does not skip.
* `inBounds_iff`: `header_get_host` needs no bound of its own, and `not_inBounds` is a request that the
  parser accepts and that does not fit.
* `submitsRight_iff`: what is submitted has no field that HTTP/2 forbids iff the request has neither
  `Transfer-Encoding` nor `Upgrade`, and `not_submitsRight` is a chunked `POST`.
-/

namespace H2ClientProxy

variable {url path t : Bytes} {u : HttpParserUrl} {header : Header}

theorem bind_eq_ok {ε α β : Type} {x : Except ε α} {f : α → Except ε β} {b : β} :
    (x >>= f) = .ok b ↔ ∃ a, x = .ok a ∧ f a = .ok b := by
  cases x with
  | error e =>
    constructor
    · rintro ⟨⟩
    · rintro ⟨a, ⟨⟩, -⟩
  | ok a =>
    constructor
    · exact fun h => ⟨a, rfl, h⟩
    · rintro ⟨_, ⟨⟩, h⟩
      exact h

/-! ### Lengths -/

/-- The length of a part, 0 if it is absent. -/
def HttpParserUrl.lenOf (u : HttpParserUrl) (f : UrlField) : ℕ :=
  if u.fieldSet f then (u.fieldData f).len else 0

/-- The text of a part behind a mark; nothing if the part is absent. -/
def markedText (mark : UInt8) (url : Bytes) (u : HttpParserUrl) (f : UrlField) : Bytes :=
  if u.fieldSet f then mark :: u.text url f else []

/-- The length of a part with its mark. -/
def markedLen (u : HttpParserUrl) (f : UrlField) : ℕ :=
  if u.fieldSet f then (u.fieldData f).len + 1 else 0

theorem length_markedText (hu : u.Inside url.length) (mark : UInt8) (f : UrlField) :
    (markedText mark url u f).length = markedLen u f := by
  unfold markedText markedLen
  split_ifs with hf
  · rw [List.length_cons, length_text hu hf]
  · rfl

/-- The path, `/` if it is absent or empty. -/
def basePath (url : Bytes) (u : HttpParserUrl) : Bytes :=
  if u.lenOf .path = 0 then bytes "/" else u.text url .path

/-- What `path` holds in the end. -/
def pathText (url : Bytes) (u : HttpParserUrl) : Bytes :=
  basePath url u ++ markedText (ascii '?') url u .query ++ markedText (ascii '#') url u .fragment

/-- The length of what `path` holds in the end. -/
def pathLen (u : HttpParserUrl) : ℕ :=
  max 1 (u.lenOf .path) + markedLen u .query + markedLen u .fragment

theorem length_basePath (hu : u.Inside url.length) :
    (basePath url u).length = max 1 (u.lenOf .path) := by
  unfold basePath
  split_ifs with hlen
  · rw [hlen]
    rfl
  · have hset : u.fieldSet .path = true := by
      by_contra hset
      exact hlen (if_neg hset)
    have hlenOf : u.lenOf .path = (u.fieldData .path).len := if_pos hset
    rw [length_text hu hset, ← hlenOf]
    omega

/-! ### The arrays -/

theorem store_eq_ok {a : FixedArray} {text : Bytes} :
    store a text = .ok t ↔ text.length < a.size ∧ t = text := by
  unfold store
  split_ifs with hlen
  · rw [Except.ok.injEq, eq_comm]
    exact (and_iff_right hlen).symm
  · simp [hlen]

theorem copyField_eq_ok {a : FixedArray} {f : UrlField} :
    copyField a url u f = .ok t ↔ (u.fieldData f).len < a.size ∧ t = u.text url f := by
  unfold copyField
  split_ifs with hlen
  · rw [Except.ok.injEq, eq_comm]
    exact (and_iff_right hlen).symm
  · simp [hlen]

/-- The text of a part, nothing if the part is absent. -/
def textOf (url : Bytes) (u : HttpParserUrl) (f : UrlField) : Bytes :=
  if u.fieldSet f then u.text url f else []

theorem length_textOf (hu : u.Inside url.length) (f : UrlField) :
    (textOf url u f).length = u.lenOf f := by
  unfold textOf HttpParserUrl.lenOf
  split_ifs with hf
  · exact length_text hu hf
  · rfl

theorem storeField_eq_ok {a : FixedArray} {f : UrlField} :
    storeField a url u f = .ok t ↔ u.lenOf f < a.size ∧ t = textOf url u f := by
  have hsize : 0 < a.size := by cases a <;> decide
  unfold storeField HttpParserUrl.lenOf textOf
  split_ifs with hset
  · exact copyField_eq_ok
  · rw [Except.ok.injEq, eq_comm]
    exact (and_iff_right hsize).symm

/-- A text that is not longer than `path` is appended whole if there is room for it. -/
theorem appendTo_path_eq_ok {text : Bytes} (htext : text.length ≤ 4096) :
    appendTo .path path text = .ok t ↔ path.length + text.length < 4096 ∧ t = path ++ text := by
  have htake : (text.take (4096 * 20 - 1)).take FixedArray.path.size = text := by
    rw [List.take_take]
    apply List.take_of_length_le
    show text.length ≤ min 4096 (4096 * 20 - 1)
    omega
  have hfits : (path ++ text).length < FixedArray.path.size ↔ path.length + text.length < 4096 := by
    rw [List.length_append]
    exact Iff.rfl
  unfold appendTo appendFormat
  rw [htake]
  dsimp only
  split_ifs with hroom
  · rw [Except.ok.injEq, eq_comm]
    exact (and_iff_right (hfits.1 hroom)).symm
  · simp [mt hfits.2 hroom]

/-! ### The path -/

/-- A part is appended if its array and `path` have room for it. -/
theorem appendPart_eq_ok (hu : u.Inside url.length) {a : FixedArray} (ha : a.size ≤ 4096)
    (hpath : path.length < 4096) {f : UrlField} {mark : UInt8} :
    appendPart a f mark url u path = .ok t ↔
      (u.lenOf f < a.size ∧ path.length + markedLen u f < 4096) ∧
      t = path ++ markedText mark url u f := by
  have hmlen := length_markedText hu mark f
  have hsize : 0 < a.size := by cases a <;> decide
  unfold appendPart HttpParserUrl.lenOf
  split_ifs with hset
  · have hmtext : markedText mark url u f = mark :: u.text url f := if_pos hset
    have hlen := length_text hu hset
    rw [hmtext] at hmlen ⊢
    rw [bind_eq_ok, ← hmlen]
    rw [List.length_cons, hlen] at hmlen
    constructor
    · rintro ⟨text, hcopy, happend⟩
      obtain ⟨hsize, rfl⟩ := copyField_eq_ok.1 hcopy
      have htext : (mark :: u.text url f).length ≤ 4096 := by
        rw [List.length_cons, hlen]
        omega
      obtain ⟨hroom, rfl⟩ := (appendTo_path_eq_ok htext).1 happend
      exact ⟨⟨hsize, hroom⟩, rfl⟩
    · rintro ⟨⟨hsize, hroom⟩, rfl⟩
      refine ⟨u.text url f, copyField_eq_ok.2 ⟨hsize, rfl⟩, ?_⟩
      exact (appendTo_path_eq_ok (by omega)).2 ⟨hroom, rfl⟩
  · have hmtext : markedText mark url u f = [] := if_neg hset
    have hzero : markedLen u f = 0 := if_neg hset
    rw [hmtext, hzero, List.append_nil]
    constructor
    · rintro ⟨⟩
      exact ⟨⟨hsize, hpath⟩, rfl⟩
    · rintro ⟨-, rfl⟩
      rfl

/-- What is in `path` before the query is appended. -/
theorem basePath_eq (hu : u.Inside url.length) :
    (if (textOf url u .path).isEmpty then bytes "/" else textOf url u .path) = basePath url u := by
  have hlen := length_textOf hu .path
  unfold basePath
  by_cases hnil : textOf url u .path = []
  · rw [hnil, List.length_nil] at hlen
    rw [hnil, if_pos hlen.symm]
    rfl
  · have hne : u.lenOf .path ≠ 0 := by
      rw [← hlen]
      exact fun h => hnil (List.length_eq_zero_iff.1 h)
    have hset : u.fieldSet .path = true := by
      by_contra hset
      exact hne (if_neg hset)
    rw [if_neg hne, List.isEmpty_eq_false_iff.2 hnil]
    exact if_pos hset

/-- `path` and `flagment` must have room. -/
theorem requestPath_eq_ok (hu : u.Inside url.length) :
    requestPath url u = .ok t ↔
      (pathLen u < 4096 ∧ u.lenOf .fragment < 512) ∧ t = pathText url u := by
  have hbase := length_basePath hu
  have hquery := length_markedText hu (ascii '?') .query
  unfold requestPath pathLen pathText
  simp only [bind_eq_ok, storeField_eq_ok]
  constructor
  · rintro ⟨_, ⟨hpath, rfl⟩, path, hpart, hpart'⟩
    have hpath' : u.lenOf .path < 4096 := hpath
    rw [basePath_eq hu] at hpart
    obtain ⟨⟨-, hroom⟩, rfl⟩ := (appendPart_eq_ok hu le_rfl (by omega)).1 hpart
    have hlt : (basePath url u ++ markedText (ascii '?') url u .query).length < 4096 := by
      rw [List.length_append]
      omega
    obtain ⟨⟨hfrag, hroom'⟩, rfl⟩ := (appendPart_eq_ok hu (by decide) hlt).1 hpart'
    rw [List.length_append] at hroom'
    exact ⟨⟨by omega, hfrag⟩, rfl⟩
  · rintro ⟨⟨hroom, hfrag⟩, rfl⟩
    have hlenQuery : u.lenOf .query ≤ markedLen u .query := by
      unfold HttpParserUrl.lenOf markedLen
      split_ifs <;> omega
    refine ⟨_, ⟨show u.lenOf .path < 4096 by omega, rfl⟩,
      basePath url u ++ markedText (ascii '?') url u .query, ?_, ?_⟩
    · rw [basePath_eq hu]
      refine (appendPart_eq_ok hu le_rfl (by omega)).2 ⟨⟨?_, by omega⟩, rfl⟩
      show u.lenOf .query < 4096
      omega
    · refine (appendPart_eq_ok hu (by decide) ?_).2 ⟨⟨hfrag, ?_⟩, rfl⟩
      · rw [List.length_append]
        omega
      · rw [List.length_append]
        omega

/-! ### The authority -/

/-- The port, `80` if it is absent. -/
def portText (url : Bytes) (u : HttpParserUrl) : Bytes :=
  if u.fieldSet .port then u.text url .port else bytes "80"

/-- What `authority` holds in the end. -/
def authorityText (header : Header) (url : Bytes) (u : HttpParserUrl) : Bytes :=
  if u.lenOf .host = 0 then (headerValue header (bytes "host")).getD []
  else textOf url u .host ++ bytes ":" ++ portText url u

/-- The length of what `authority` holds in the end. -/
def authorityLen (header : Header) (u : HttpParserUrl) : ℕ :=
  if u.lenOf .host = 0 then ((headerValue header (bytes "host")).getD []).length
  else u.lenOf .host + 1 + if u.fieldSet .port then (u.fieldData .port).len else 2

theorem length_portText (hu : u.Inside url.length) :
    (portText url u).length = if u.fieldSet .port then (u.fieldData .port).len else 2 := by
  unfold portText
  split_ifs with hset
  · exact length_text hu hset
  · rfl

theorem requestPort_eq_ok :
    requestPort url u = .ok t ↔ u.lenOf .port < 10 ∧ t = portText url u := by
  unfold requestPort HttpParserUrl.lenOf portText
  split_ifs with hset
  · exact copyField_eq_ok
  · constructor
    · rintro ⟨⟩
      exact ⟨by decide, rfl⟩
    · rintro ⟨-, rfl⟩
      rfl

theorem hostFieldAuthority_eq_ok :
    hostFieldAuthority header = .ok t ↔
      ((headerValue header (bytes "host")).getD []).length < 128 ∧
        t = (headerValue header (bytes "host")).getD [] := by
  unfold hostFieldAuthority
  cases headerValue header (bytes "host") with
  | some host => exact store_eq_ok
  | none =>
    constructor
    · rintro ⟨⟩
      exact ⟨by decide, rfl⟩
    · rintro ⟨-, rfl⟩
      rfl

/-- `authority` and `port` must have room. -/
theorem requestAuthority_eq_ok (hu : u.Inside url.length) :
    requestAuthority header url u = .ok t ↔
      (authorityLen header u < 128 ∧ u.lenOf .port < 10) ∧ t = authorityText header url u := by
  have hhost := length_textOf hu .host
  have hport := length_portText hu
  unfold requestAuthority authorityLen authorityText
  simp only [bind_eq_ok, storeField_eq_ok, requestPort_eq_ok]
  by_cases hzero : u.lenOf .host = 0
  · -- the `Host` field
    have hnil : textOf url u .host = [] := List.length_eq_zero_iff.1 (hhost.trans hzero)
    rw [if_pos hzero, if_pos hzero]
    constructor
    · rintro ⟨_, ⟨-, rfl⟩, _, ⟨hport10, rfl⟩, hfield⟩
      rw [hnil] at hfield
      obtain ⟨hroom, rfl⟩ := hostFieldAuthority_eq_ok.1 hfield
      exact ⟨⟨hroom, hport10⟩, rfl⟩
    · rintro ⟨⟨hroom, hport10⟩, rfl⟩
      refine ⟨_, ⟨?_, rfl⟩, _, ⟨hport10, rfl⟩, ?_⟩
      · rw [hzero]
        decide
      · rw [hnil]
        exact hostFieldAuthority_eq_ok.2 ⟨hroom, rfl⟩
  · -- host and port of the url
    have hne : (textOf url u .host).isEmpty = false := by
      apply List.isEmpty_eq_false_iff.2
      intro hnil
      rw [hnil] at hhost
      exact hzero hhost.symm
    rw [if_neg hzero, if_neg hzero, ← hport]
    constructor
    · rintro ⟨_, ⟨-, rfl⟩, _, ⟨hport10, rfl⟩, hjoin⟩
      simp only [hne, Bool.false_eq_true, if_false, bind_eq_ok, store_eq_ok] at hjoin
      obtain ⟨_, ⟨-, rfl⟩, hroom, rfl⟩ := hjoin
      rw [List.length_append, List.length_append, hhost] at hroom
      exact ⟨⟨hroom, hport10⟩, rfl⟩
    · rintro ⟨⟨hroom, hport10⟩, rfl⟩
      have hroom' : u.lenOf .host + 1 < FixedArray.authority.size := by
        show u.lenOf .host + 1 < 128
        omega
      refine ⟨_, ⟨?_, rfl⟩, _, ⟨hport10, rfl⟩, ?_⟩
      · omega
      · simp only [hne, Bool.false_eq_true, if_false, bind_eq_ok, store_eq_ok]
        refine ⟨_, ⟨?_, rfl⟩, ?_, rfl⟩
        · rw [List.length_append, hhost]
          exact hroom'
        · rw [List.length_append, List.length_append, hhost]
          exact hroom

/-! ### The name/value list -/

/-- The fields that are not skipped. -/
def keptFields (header : Header) : List Field :=
  header.listHeaders.filter fun f => !skipsField f.field

/-- A field as an element of `nvs`. -/
def Field.nv (f : Field) : Nv := ⟨f.field, f.value⟩

theorem relayMakeNv_eq_ok {nvs nvs' : List Nv} {name value : Bytes} :
    relayMakeNv nvs name value = .ok nvs' ↔ nvs.length < 100 ∧ nvs' = nvs ++ [⟨name, value⟩] := by
  unfold relayMakeNv
  split_ifs with hlen
  · rw [Except.ok.injEq, eq_comm]
    exact (and_iff_right hlen).symm
  · have hlen' : ¬ nvs.length < 100 := hlen
    simp [hlen']

/-- The loop over the fields stays inside `nvs` iff there is room for those that are not skipped. -/
theorem makeFieldNvs_eq_ok {fields : List Field} {nvs nvs' : List Nv} (h : nvs.length ≤ 100) :
    makeFieldNvs fields nvs = .ok nvs' ↔
      nvs.length + (fields.filter fun f => !skipsField f.field).length ≤ 100 ∧
        nvs' = nvs ++ (fields.filter fun f => !skipsField f.field).map Field.nv := by
  induction fields generalizing nvs with
  | nil =>
    constructor
    · intro hok
      have hnvs : nvs = nvs' := Except.ok.inj hok
      rw [← hnvs]
      exact ⟨h, (List.append_nil nvs).symm⟩
    · rintro ⟨-, hnvs⟩
      rw [hnvs, List.filter_nil, List.map_nil, List.append_nil]
      rfl
  | cons pos rest ih =>
    rw [makeFieldNvs]
    split_ifs with hskip
    · rw [List.filter_cons_of_neg (by simp [hskip])]
      exact ih h
    · rw [List.filter_cons_of_pos (by simp [hskip]), List.length_cons, List.map_cons, bind_eq_ok]
      simp only [relayMakeNv_eq_ok]
      constructor
      · rintro ⟨_, ⟨hlt, rfl⟩, hrest⟩
        obtain ⟨hroom, rfl⟩ := (ih (by rw [List.length_append]; exact hlt)).1 hrest
        rw [List.length_append, List.length_singleton] at hroom
        refine ⟨by omega, ?_⟩
        rw [List.append_assoc]
        rfl
      · rintro ⟨hroom, rfl⟩
        refine ⟨_, ⟨by omega, rfl⟩, ?_⟩
        refine (ih ?_).2 ⟨?_, ?_⟩
        · rw [List.length_append, List.length_singleton]
          omega
        · rw [List.length_append, List.length_singleton]
          omega
        · rw [List.append_assoc]
          rfl

/-- The scheme, `http` if it is absent or empty. -/
def schemeText (url : Bytes) (u : HttpParserUrl) : Bytes :=
  if u.lenOf .schema = 0 then bytes "http" else textOf url u .schema

/-- The pseudo-headers of a request. -/
def pseudoNvs (header : Header) (url : Bytes) : List Nv :=
  let u := requestUrl header url
  if header.isConnect then
    [⟨bytes ":method", header.method⟩, ⟨bytes ":authority", authorityText header url u⟩]
  else
    [⟨bytes ":method", header.method⟩, ⟨bytes ":path", pathText url u⟩,
      ⟨bytes ":scheme", schemeText url u⟩, ⟨bytes ":authority", authorityText header url u⟩]

/-- The request fits into the arrays of `relay_send_request`. -/
structure RequestFits (header : Header) (url : Bytes) : Prop where
  schma : (requestUrl header url).lenOf .schema < 24
  path : pathLen (requestUrl header url) < 4096
  flagment : (requestUrl header url).lenOf .fragment < 512
  authority : authorityLen header (requestUrl header url) < 128
  port : (requestUrl header url).lenOf .port < 10
  nvs : (pseudoNvs header url).length + (keptFields header).length ≤ 100

theorem makePseudoNvs_eq (header : Header) (path schma authority : Bytes) :
    makePseudoNvs header path schma authority = .ok (if header.isConnect then
      [⟨bytes ":method", header.method⟩, ⟨bytes ":authority", authority⟩]
    else
      [⟨bytes ":method", header.method⟩, ⟨bytes ":path", path⟩, ⟨bytes ":scheme", schma⟩,
        ⟨bytes ":authority", authority⟩]) := by
  unfold makePseudoNvs
  cases header.isConnect <;> rfl

/-- `relay_send_request` stays inside its arrays iff the request fits, and submits the pseudo-headers and
the fields that it does not skip. -/
theorem requestNvs_eq_ok {nvs : List Nv} :
    requestNvs header url = .ok nvs ↔
      RequestFits header url ∧ nvs = pseudoNvs header url ++ (keptFields header).map Field.nv := by
  have hu : (requestUrl header url).Inside url.length := parseUrl_inside url header.isConnect
  have hscheme : (if (textOf url (requestUrl header url) .schema).isEmpty then bytes "http"
      else textOf url (requestUrl header url) .schema) =
        schemeText url (requestUrl header url) := by
    unfold schemeText
    rw [← length_textOf hu .schema]
    cases textOf url (requestUrl header url) .schema <;> rfl
  have hpseudo : (pseudoNvs header url).length ≤ 100 := by
    unfold pseudoNvs
    dsimp only
    split_ifs
    · show 2 ≤ 100
      decide
    · show 4 ≤ 100
      decide
  unfold requestNvs
  simp only [bind_eq_ok, makePseudoNvs_eq, Except.ok.injEq]
  constructor
  · rintro ⟨_, hs, _, hp, _, ha, _, rfl, hfields⟩
    obtain ⟨hschma, rfl⟩ := storeField_eq_ok.1 hs
    obtain ⟨⟨hpath, hflag⟩, rfl⟩ := (requestPath_eq_ok hu).1 hp
    obtain ⟨⟨hauth, hport⟩, rfl⟩ := (requestAuthority_eq_ok hu).1 ha
    rw [hscheme] at hfields
    obtain ⟨hroom, rfl⟩ := (makeFieldNvs_eq_ok hpseudo).1 hfields
    exact ⟨⟨hschma, hpath, hflag, hauth, hport, hroom⟩, rfl⟩
  · rintro ⟨h, rfl⟩
    refine ⟨_, storeField_eq_ok.2 ⟨h.schma, rfl⟩, _, (requestPath_eq_ok hu).2 ⟨⟨h.path, h.flagment⟩, rfl⟩,
      _, (requestAuthority_eq_ok hu).2 ⟨⟨h.authority, h.port⟩, rfl⟩, _, rfl, ?_⟩
    rw [hscheme]
    exact (makeFieldNvs_eq_ok hpseudo).2 ⟨h.nvs, rfl⟩

/-! ### Inside the arrays -/

/-- `header_get_host` into `host[255]` and `relay_send_request` stay inside their arrays. -/
def InBounds (u0 : HttpParserUrl) (header : Header) (url : Bytes) : Prop :=
  (∃ host, headerGetHost u0 header url = .ok host) ∧ ∃ nvs, requestNvs header url = .ok nvs

/-- A host that fits into `authority` fits into `host`. -/
theorem RequestFits.lenOf_host (h : RequestFits header url) :
    (requestUrl header url).lenOf .host < 255 := by
  have hauth := h.authority
  unfold authorityLen at hauth
  split_ifs at hauth with hzero <;> omega

/-- The length of the host does not depend on what was in the structure. -/
theorem lenOf_host_eq (u0 : HttpParserUrl) (header : Header) (url : Bytes) :
    (httpParserParseUrl u0 url header.isConnect).2.lenOf .host =
      (requestUrl header url).lenOf .host := by
  obtain ⟨hset, hdata⟩ := parseUrl_host_eq u0 url header.isConnect
  unfold HttpParserUrl.lenOf requestUrl
  rw [hset]
  split_ifs with hhost
  · rw [hdata hhost]
  · rfl

/-- The arrays are written inside their bounds iff the parts of the url, the `Host` field and the number
of fields keep their limits. -/
theorem inBounds_iff (u0 : HttpParserUrl) (header : Header) (url : Bytes) :
    InBounds u0 header url ↔ RequestFits header url := by
  constructor
  · rintro ⟨-, nvs, hnvs⟩
    exact (requestNvs_eq_ok.1 hnvs).1
  · intro h
    refine ⟨⟨_, storeField_eq_ok.2 ⟨?_, rfl⟩⟩, _, requestNvs_eq_ok.2 ⟨h, rfl⟩⟩
    rw [lenOf_host_eq]
    exact h.lenOf_host

/-- A request whose scheme has 24 letters. -/
def longScheme : Bytes := bytes "GET aaaaaaaaaaaaaaaaaaaaaaaa://h/ HTTP/1.1\r\n\r\n"

/-- The parser accepts requests for which `schma` is written outside its bounds. -/
theorem not_inBounds : ¬ ∀ pieces k, Connection.feed {} pieces = some k → ∀ req ∈ k.requests,
    req.complete = true → ∀ url, req.header.url = some url → ∀ u0, InBounds u0 req.header url := by
  intro h
  have hparsed : ∃ k req url, Connection.feed {} [longScheme] = some k ∧ req ∈ k.requests ∧
      req.complete = true ∧ req.header.url = some url ∧
      requestNvs req.header url = .error .schma := by
    refine ⟨_, _, _, rfl, List.mem_singleton_self _, ?_, rfl, ?_⟩ <;> decide +kernel
  obtain ⟨k, req, url, hk, hmem, hcomplete, hurl, herror⟩ := hparsed
  obtain ⟨-, nvs, hnvs⟩ := h _ k hk req hmem hcomplete url hurl .zero
  rw [herror] at hnvs
  cases hnvs

/-! ### The fields that HTTP/2 forbids -/

/-- The connection-specific fields. -/
def isConnectionSpecific (field : Bytes) : Bool :=
  strcasecmp field (bytes "Host") || strcasecmp field (bytes "Connection")
    || strcasecmp field (bytes "Keep-Alive") || strcasecmp field (bytes "Proxy-Connection")
    || strcasecmp field (bytes "Transfer-Encoding") || strcasecmp field (bytes "Upgrade")

/-- The connection-specific fields that the loop over `list_headers` forgets. -/
def isForgotten (field : Bytes) : Bool :=
  strcasecmp field (bytes "Transfer-Encoding") || strcasecmp field (bytes "Upgrade")

/-- The pseudo-headers come first, then the fields that are not connection-specific, in their order, and
nothing that is submitted is connection-specific. -/
def SubmitsRight (header : Header) (url : Bytes) : Prop :=
  ∃ nvs, requestNvs header url = .ok nvs ∧
    nvs = pseudoNvs header url ++
      (header.listHeaders.filter fun f => !isConnectionSpecific f.field).map Field.nv ∧
    ∀ nv ∈ nvs, isConnectionSpecific nv.name = false

theorem isConnectionSpecific_eq (field : Bytes) :
    isConnectionSpecific field = (skipsField field || isForgotten field) := by
  have hconn : (bytes "Connection").map tolower = (bytes "connection").map tolower := by decide
  have hkeep : (bytes "Keep-Alive").map tolower = (bytes "keep-alive").map tolower := by decide
  have hproxy : (bytes "Proxy-Connection").map tolower =
      (bytes "proxy-connection").map tolower := by decide
  unfold isConnectionSpecific skipsField isForgotten strcasecmp
  rw [hconn, hkeep, hproxy]
  ac_rfl

/-- The forgotten fields have other names than the skipped ones. -/
theorem skipsField_of_isForgotten {field : Bytes} (h : isForgotten field = true) :
    skipsField field = false := by
  unfold isForgotten strcasecmp at h
  unfold skipsField strcasecmp
  rw [Bool.or_eq_true, beq_iff_eq, beq_iff_eq] at h
  obtain h | h := h
  · rw [h]
    decide
  · rw [h]
    decide

/-- No pseudo-header is connection-specific. -/
theorem pseudoNvs_allowed (header : Header) (url : Bytes) :
    ∀ nv ∈ pseudoNvs header url, isConnectionSpecific nv.name = false := by
  unfold pseudoNvs
  dsimp only
  intro nv hnv
  split_ifs at hnv
  · simp only [List.mem_cons, List.not_mem_nil, or_false] at hnv
    obtain rfl | rfl := hnv
    · exact (by decide : isConnectionSpecific (bytes ":method") = false)
    · exact (by decide : isConnectionSpecific (bytes ":authority") = false)
  · simp only [List.mem_cons, List.not_mem_nil, or_false] at hnv
    obtain rfl | rfl | rfl | rfl := hnv
    · exact (by decide : isConnectionSpecific (bytes ":method") = false)
    · exact (by decide : isConnectionSpecific (bytes ":path") = false)
    · exact (by decide : isConnectionSpecific (bytes ":scheme") = false)
    · exact (by decide : isConnectionSpecific (bytes ":authority") = false)

/-- The submitted list is right iff the request fits and has none of the forgotten fields. -/
theorem submitsRight_iff (header : Header) (url : Bytes) :
    SubmitsRight header url ↔
      RequestFits header url ∧ ∀ f ∈ header.listHeaders, isForgotten f.field = false := by
  constructor
  · rintro ⟨nvs, hnvs, -, hallowed⟩
    obtain ⟨hfits, rfl⟩ := requestNvs_eq_ok.1 hnvs
    refine ⟨hfits, ?_⟩
    intro f hf
    by_contra hforgot
    rw [Bool.not_eq_false] at hforgot
    have hmem : f.nv ∈ pseudoNvs header url ++ (keptFields header).map Field.nv := by
      apply List.mem_append_right
      apply List.mem_map_of_mem
      rw [keptFields, List.mem_filter, skipsField_of_isForgotten hforgot]
      exact ⟨hf, rfl⟩
    have hspecific : isConnectionSpecific f.field = false := hallowed f.nv hmem
    rw [isConnectionSpecific_eq, hforgot, Bool.or_true] at hspecific
    exact Bool.noConfusion hspecific
  · rintro ⟨hfits, hnone⟩
    have hkept : keptFields header =
        header.listHeaders.filter fun f => !isConnectionSpecific f.field := by
      apply List.filter_congr
      intro f hf
      rw [isConnectionSpecific_eq, hnone f hf, Bool.or_false]
    refine ⟨_, requestNvs_eq_ok.2 ⟨hfits, rfl⟩, by rw [hkept], ?_⟩
    intro nv hnv
    obtain hpseudo | hfield := List.mem_append.1 hnv
    · exact pseudoNvs_allowed header url nv hpseudo
    · rw [hkept] at hfield
      obtain ⟨f, hf, rfl⟩ := List.mem_map.1 hfield
      rw [List.mem_filter, Bool.not_eq_eq_eq_not, Bool.not_true] at hf
      exact hf.2

/-- A `POST` with a chunked body. -/
def chunkedPost : Header where
  method := bytes "POST"
  url := some (bytes "/")
  listHeaders := [⟨bytes "Transfer-Encoding", bytes "chunked"⟩]

/-- `Transfer-Encoding` is submitted. -/
theorem not_submitsRight :
    ¬ ∀ header url, RequestFits header url → SubmitsRight header url := by
  intro h
  have hfits : RequestFits chunkedPost (bytes "/") := by
    constructor <;> decide +kernel
  obtain ⟨nvs, hnvs, -, hallowed⟩ := h _ _ hfits
  obtain ⟨-, rfl⟩ := requestNvs_eq_ok.1 hnvs
  have hmem : (⟨bytes "Transfer-Encoding", bytes "chunked"⟩ : Nv) ∈
      pseudoNvs chunkedPost (bytes "/") ++ (keptFields chunkedPost).map Field.nv := by
    decide +kernel
  exact absurd (hallowed _ hmem) (by decide)

end H2ClientProxy
