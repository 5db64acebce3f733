import H2ClientProxy.Equiv.Pieces
import H2ClientProxy.Equiv.UrlScan
import H2ClientProxy.HttpParser.Message

/-!
# The parser reads the request line

* `Runs e text e'`: the loop gets from `e` to `e'` over `text`, without an error.
* `AtField`: where the parser is between two header fields.
* `runs_line`: the request line of a request makes the calls `messageBegin` and `url`, and leaves the
  parser at the first field.
-/

namespace H2ClientProxy

open Coalesce
open scoped Bytes

/-! ### Runs -/

/-- The loop gets from `e` to `e'` over `text`. -/
structure Runs (e : Exec) (text : Bytes) (e' : Exec) : Prop where
  start : e.parser.errno = none
  stop : e'.parser.errno = none
  eq : execBytes text e = e'

variable {e e1 e' : Exec} {a b text : Bytes} {p : HttpParser} {ch : UInt8}

theorem Runs.refl (he : e.parser.errno = none) : Runs e [] e := ⟨he, he, rfl⟩

theorem Runs.trans (h : Runs e a e1) (h' : Runs e1 b e') : Runs e (a ++ b) e' := by
  refine ⟨h.start, h'.stop, ?_⟩
  rw [execBytes_append a b h.start, h.eq, h.stop]
  exact h'.eq

theorem Runs.single (h : execByte e ch = e') (he : e.parser.errno = none) (he' : e'.parser.errno = none) :
    Runs e [ch] e' := by
  refine ⟨he, he', ?_⟩
  rw [execBytes, h, he']
  rfl

/-- A byte of a head, while the head is not too long. -/
theorem execByte_head (hp : e.parser.state.parsingHeader = true) (hn : e.parser.nread < httpMaxHeaderSize)
    (ch : UInt8) : execByte e ch =
      (execState { e with parser := { e.parser with nread := e.parser.nread + 1 } } ch).pass ch := by
  unfold execByte
  rw [if_pos hp]
  dsimp only
  rw [if_neg (by omega)]

/-! ### The request line -/

variable {calls : List Callback} {m m' : HttpMethod} {s : UrlState} {n : ℕ}

/-- The method after more of its letters. -/
def methodRun : HttpMethod → ℕ → Bytes → Option HttpMethod
  | m, _, [] => some m
  | m, i, c :: w =>
    match matchMethod m i c with
    | .ok m => methodRun m (i + 1) w
    | .error _ => none

/-- Every method is recognized from its own letters. -/
theorem methodRun_str (m : HttpMethod) : ∃ c w m0, m.str = [c] ++ w ∧ isAlpha c = true ∧
    firstMethod c = some m0 ∧ methodRun m0 1 w = some m := by
  cases m <;> exact ⟨_, _, _, rfl, by decide, rfl, by decide⟩

theorem str_letters (m : HttpMethod) : ∀ c ∈ m.str, c ≠ 0 ∧ c ≠ ascii ' ' := by
  cases m <;> decide +kernel

theorem runs_startReq {m0 : HttpMethod} (hs : p.state = .startReq) (he : p.errno = none)
    (hn : p.nread < httpMaxHeaderSize) (hc : isAlpha ch = true) (hm : firstMethod ch = some m0) :
    Runs { parser := p, calls := calls } [ch]
      { parser := { p with
          flags := {}, contentLength := ullongMax, method := m0, index := 1, state := .reqMethod
          nread := p.nread + 1 }
        calls := calls ++ [Callback.messageBegin] } := by
  have hline : ¬(ch = cr || ch = lf) = true := by
    rw [Bool.or_eq_true, decide_eq_true_iff, decide_eq_true_iff]
    rintro (rfl | rfl) <;> exact absurd hc (by decide)
  refine .single ?_ he he
  rw [execByte_head (by rw [hs]; rfl) hn, execState, hs]
  dsimp only
  rw [startReq, if_neg hline]
  dsimp only
  rw [hc, hm]
  rfl

theorem runs_method {w : Bytes} (hs : p.state = .reqMethod) (he : p.errno = none)
    (hn : p.nread + w.length ≤ httpMaxHeaderSize) (hw : ∀ c ∈ w, c ≠ 0 ∧ c ≠ ascii ' ')
    (hm : methodRun p.method p.index w = some m) :
    Runs { parser := p, calls := calls } w
      { parser := { p with method := m, index := p.index + w.length, nread := p.nread + w.length }
        calls := calls } := by
  induction w generalizing p with
  | nil =>
    rw [methodRun] at hm
    rw [← Option.some.inj hm]
    exact .refl he
  | cons c w ih =>
    obtain ⟨⟨hc0, hblank⟩, hw⟩ := List.forall_mem_cons.mp hw
    rw [List.length_cons] at hn
    rw [methodRun] at hm
    cases hmatch : matchMethod p.method p.index c with
    | error errno =>
      rw [hmatch] at hm
      exact absurd hm.symm (Option.some_ne_none m)
    | ok m1 =>
      rw [hmatch] at hm
      have hstep : Runs { parser := p, calls := calls } [c]
          { parser := { p with method := m1, index := p.index + 1, nread := p.nread + 1 }
            calls := calls } := by
        refine .single ?_ he he
        rw [execByte_head (by rw [hs]; rfl) (by show p.nread < _; omega), execState]
        dsimp only
        rw [hs]
        dsimp only
        rw [reqMethod]
        dsimp only
        rw [if_neg hc0, if_neg (by simp [hblank]), hmatch]
        rfl
      have hrest := ih (p := { p with method := m1, index := p.index + 1, nread := p.nread + 1 })
        hs he (by show p.nread + 1 + w.length ≤ _; omega) hw hm
      rw [List.length_cons, Nat.add_comm w.length 1, ← Nat.add_assoc, ← Nat.add_assoc]
      exact hstep.trans hrest

/-- The blank behind the method. -/
theorem runs_methodEnd (hs : p.state = .reqMethod) (he : p.errno = none)
    (hn : p.nread < httpMaxHeaderSize) (hend : p.method.str.getD p.index 0 = 0) :
    Runs { parser := p, calls := calls } [ascii ' ']
      { parser := { p with
          state := .url .spacesBeforeUrl, index := p.index + 1, nread := p.nread + 1 }
        calls := calls } := by
  refine .single ?_ he he
  rw [execByte_head (by rw [hs]; rfl) hn, execState]
  dsimp only
  rw [hs]
  dsimp only
  rw [reqMethod]
  dsimp only
  rw [hend, if_neg (by decide)]
  rfl

/-- The method and the blank behind it. -/
theorem runs_methodName (m : HttpMethod) (hs : p.state = .startReq) (he : p.errno = none)
    (hn : p.nread + (m.str.length + 1) ≤ httpMaxHeaderSize) :
    Runs { parser := p, calls := calls } (m.str ++ bytes " ")
      { parser := { p with
          flags := {}, contentLength := ullongMax, method := m, index := m.str.length + 1
          state := .url .spacesBeforeUrl, nread := p.nread + (m.str.length + 1) }
        calls := calls ++ [Callback.messageBegin] } := by
  obtain ⟨c, w, m0, hstr, hc, hm0, hrun⟩ := methodRun_str m
  have hletters : ∀ x ∈ w, x ≠ 0 ∧ x ≠ ascii ' ' := fun x hx =>
    str_letters m x (by rw [hstr]; exact List.mem_append_right _ hx)
  have hlen : m.str.length = 1 + w.length := by rw [hstr, List.length_append]; rfl
  have hend : m.str.getD (1 + w.length) 0 = 0 := by
    rw [List.getD_eq_getElem?_getD, List.getElem?_eq_none (by omega)]
    rfl
  have h1 : Runs { parser := p, calls := calls } _ _ := runs_startReq hs he (by omega) hc hm0
  have h2 := h1.trans (runs_method (w := w) rfl he (by show p.nread + 1 + _ ≤ _; omega) hletters hrun)
  have h3 := h2.trans (runs_methodEnd rfl he (by show p.nread + 1 + _ < _; omega) hend)
  rw [← hstr] at h3
  rw [hlen, show p.nread + (1 + w.length + 1) = p.nread + 1 + w.length + 1 by omega]
  exact h3

/-! The url. -/

theorem parseUrlChar_blank {s : UrlState} (h : parseUrlChar s ch ≠ .dead) :
    ch ≠ ascii ' ' ∧ ch ≠ cr ∧ ch ≠ lf := by
  refine ⟨?_, ?_, ?_⟩ <;> rintro rfl <;> exact h (by cases s <;> decide)

theorem foldl_parseUrlChar_ne (w : Bytes) {s : UrlState} (hs : s ≠ .spacesBeforeUrl) :
    w.foldl parseUrlChar s ≠ .spacesBeforeUrl := by
  induction w generalizing s with
  | nil => exact hs
  | cons c w ih => exact ih (parseUrlChar_ne s c)

/-- A character of the url, when it is marked. -/
theorem reqUrl_char {s : UrlState} (hs : s ≠ .spacesBeforeUrl) (h : parseUrlChar s ch ≠ .dead) :
    reqUrl e s ch = e.goto (.url (parseUrlChar s ch)) := by
  obtain ⟨h1, h2, h3⟩ := parseUrlChar_blank h
  have hchar : urlChar e s ch = e.goto (.url (parseUrlChar s ch)) := by
    unfold urlChar
    dsimp only
    rw [if_neg h]
  unfold reqUrl
  cases s <;> simp_all

theorem runs_url {w x : Bytes} (hs : p.state = .url s) (hs0 : s ≠ .spacesBeforeUrl)
    (he : p.errno = none) (hn : p.nread + w.length ≤ httpMaxHeaderSize)
    (hw : w.foldl parseUrlChar s ≠ .dead) :
    Runs { parser := p, urlMark := some x, calls := calls } w
      { parser := { p with state := .url (w.foldl parseUrlChar s), nread := p.nread + w.length }
        urlMark := some (x ++ w), calls := calls } := by
  induction w generalizing p s x with
  | nil =>
    rw [List.append_nil, List.foldl_nil, ← hs]
    exact .refl he
  | cons c w ih =>
    rw [List.length_cons] at hn
    rw [List.foldl_cons] at hw ⊢
    have hlive : parseUrlChar s c ≠ .dead := by
      intro hdead
      rw [hdead, foldl_dead] at hw
      exact hw rfl
    have hstep : Runs { parser := p, urlMark := some x, calls := calls } [c]
        { parser := { p with state := .url (parseUrlChar s c), nread := p.nread + 1 }
          urlMark := some (x ++ [c]), calls := calls } := by
      refine .single ?_ he he
      rw [execByte_head (by rw [hs]; rfl) (by show p.nread < _; omega), execState]
      dsimp only
      rw [hs]
      dsimp only
      rw [reqUrl_char hs0 hlive]
      rfl
    have hrest := ih (p := { p with state := .url (parseUrlChar s c), nread := p.nread + 1 })
      (x := x ++ [c]) rfl (parseUrlChar_ne s c) he
      (by show p.nread + 1 + w.length ≤ _; omega) hw
    have hall := hstep.trans hrest
    rw [List.append_assoc] at hall
    rw [List.length_cons, Nat.add_comm w.length 1, ← Nat.add_assoc]
    exact hall

/-- The first character of the url. -/
theorem runs_urlStart (hs : p.state = .url .spacesBeforeUrl) (he : p.errno = none)
    (hn : p.nread < httpMaxHeaderSize) (hc : ch ≠ ascii ' ')
    (hlive : parseUrlChar (if p.method = .connect then .serverStart else .spacesBeforeUrl) ch ≠ .dead) :
    Runs { parser := p, calls := calls } [ch]
      { parser := { p with
          state := .url (parseUrlChar (if p.method = .connect then .serverStart else .spacesBeforeUrl) ch)
          nread := p.nread + 1 }
        urlMark := some [ch], calls := calls } := by
  refine .single ?_ he he
  rw [execByte_head (by rw [hs]; rfl) hn, execState]
  dsimp only
  rw [hs]
  dsimp only
  rw [reqUrl, if_neg hc, urlChar]
  show (if parseUrlChar (if p.method = .connect then .serverStart else .spacesBeforeUrl) ch = .dead
    then _ else _ : Exec).pass ch = _
  rw [if_neg hlive]
  rfl

/-- The blank behind the url. -/
theorem runs_urlEnd {x : Bytes} (hs : p.state = .url s) (he : p.errno = none)
    (hn : p.nread < httpMaxHeaderSize) (hs0 : s ≠ .spacesBeforeUrl)
    (hend : s ∉ [UrlState.dead, .schema, .schemaSlash, .schemaSlashSlash, .serverStart]) :
    Runs { parser := p, urlMark := some x, calls := calls } [ascii ' ']
      { parser := { p with state := .reqHttpStart, nread := p.nread + 1 }
        calls := calls ++ [Callback.url x] } := by
  refine .single ?_ he he
  rw [execByte_head (by rw [hs]; rfl) hn, execState]
  dsimp only
  rw [hs]
  dsimp only
  unfold reqUrl
  cases s with
  | spacesBeforeUrl => exact absurd rfl hs0
  | schema | schemaSlash | schemaSlashSlash | serverStart => exact absurd hend (by decide)
  | _ => rfl

/-- The url and the blank behind it. -/
theorem runs_target {url : Bytes} (hne : url ≠ []) (hs : p.state = .url .spacesBeforeUrl)
    (he : p.errno = none) (hn : p.nread + (url.length + 1) ≤ httpMaxHeaderSize)
    (hurl : url.foldl parseUrlChar (if p.method = .connect then .serverStart else .spacesBeforeUrl) ∉
      [UrlState.dead, .schema, .schemaSlash, .schemaSlashSlash, .serverStart]) :
    Runs { parser := p, calls := calls } (url ++ bytes " ")
      { parser := { p with state := .reqHttpStart, nread := p.nread + (url.length + 1) }
        calls := calls ++ [Callback.url url] } := by
  obtain ⟨u, v, rfl⟩ := List.exists_cons_of_ne_nil hne
  rw [List.foldl_cons] at hurl
  rw [List.length_cons] at hn
  have hdead : v.foldl parseUrlChar
      (parseUrlChar (if p.method = .connect then .serverStart else .spacesBeforeUrl) u) ≠ .dead :=
    fun h => hurl (by rw [h]; exact List.mem_cons_self)
  have hlive :
      parseUrlChar (if p.method = .connect then .serverStart else .spacesBeforeUrl) u ≠ .dead := by
    intro h
    rw [h, foldl_dead] at hdead
    exact hdead rfl
  have h1 : Runs { parser := p, calls := calls } _ _ :=
    runs_urlStart hs he (by omega) (parseUrlChar_blank hlive).1 hlive
  have h2 := h1.trans (runs_url (w := v) rfl (parseUrlChar_ne _ u) he
    (by show p.nread + 1 + _ ≤ _; omega) hdead)
  have h3 := h2.trans (runs_urlEnd rfl he (by show p.nread + 1 + _ < _; omega)
    (foldl_parseUrlChar_ne v (parseUrlChar_ne _ u)) hurl)
  rw [List.length_cons, show p.nread + (v.length + 1 + 1) = p.nread + 1 + v.length + 1 by omega]
  exact h3

/-- A byte that only takes the parser to the next state. -/
theorem runs_goto (ch : UInt8) (next : ParserState) {st : ParserState} (hs : p.state = st) (he : p.errno = none)
    (hn : p.nread < httpMaxHeaderSize) (hhead : st.parsingHeader = true)
    (hgoto : ∀ e : Exec, e.parser.state = st → execState e ch = e.goto next) :
    Runs { parser := p, calls := calls } [ch]
      { parser := { p with state := next, nread := p.nread + 1 }, calls := calls } := by
  refine .single ?_ he he
  rw [execByte_head (by rw [hs]; exact hhead) hn, hgoto _ hs]
  rfl

theorem minor_digit : ∀ n : ℕ, n < 10 → isNum (ascii '0' + n.toUInt8) = true ∧
    digit (ascii '0' + n.toUInt8) = n := by
  decide

/-- The first digit of the version. -/
theorem runs_major (hs : p.state = .reqFirstHttpMajor) (he : p.errno = none)
    (hn : p.nread < httpMaxHeaderSize) :
    Runs { parser := p, calls := calls } [ascii '1']
      { parser := { p with httpMajor := 1, state := .reqHttpMajor, nread := p.nread + 1 }
        calls := calls } := by
  refine .single ?_ he he
  rw [execByte_head (by rw [hs]; rfl) hn, execState]
  dsimp only
  rw [hs]
  rfl

/-- The second digit of the version. -/
theorem runs_minor (hs : p.state = .reqFirstHttpMinor) (he : p.errno = none)
    (hn : p.nread < httpMaxHeaderSize) (hc : isNum ch = true) :
    Runs { parser := p, calls := calls } [ch]
      { parser := { p with httpMinor := digit ch, state := .reqHttpMinor, nread := p.nread + 1 }
        calls := calls } := by
  refine .single ?_ he he
  rw [execByte_head (by rw [hs]; rfl) hn, execState]
  dsimp only
  rw [hs]
  dsimp only
  rw [reqFirstHttpMinor, hc]
  rfl

/-- The version and the end of the request line. -/
theorem runs_version (hs : p.state = .reqHttpStart) (he : p.errno = none)
    (hn : p.nread + 10 ≤ httpMaxHeaderSize) (hc : isNum ch = true) :
    Runs { parser := p, calls := calls } (bytes "HTTP/1." ++ [ch] ++ crlf)
      { parser := { p with
          httpMajor := 1, httpMinor := digit ch, state := .headerFieldStart, nread := p.nread + 10 }
        calls := calls } := by
  have h1 : Runs { parser := p, calls := calls } _ _ := runs_goto (ascii 'H') .reqHttpH hs he
    (by omega) rfl (fun e h => by rw [execState, h]; rfl)
  have h2 := h1.trans (runs_goto (ascii 'T') .reqHttpHT rfl he (by show _ + 1 < _; omega) rfl
    (fun e h => by rw [execState, h]; rfl))
  have h3 := h2.trans (runs_goto (ascii 'T') .reqHttpHTT rfl he (by show _ + 1 + 1 < _; omega) rfl
    (fun e h => by rw [execState, h]; rfl))
  have h4 := h3.trans (runs_goto (ascii 'P') .reqHttpHTTP rfl he
    (by show _ + 1 + 1 + 1 < _; omega) rfl (fun e h => by rw [execState, h]; rfl))
  have h5 := h4.trans (runs_goto (ascii '/') .reqFirstHttpMajor rfl he
    (by show _ + 1 + 1 + 1 + 1 < _; omega) rfl (fun e h => by rw [execState, h]; rfl))
  have h6 := h5.trans (runs_major rfl he (by show _ + 1 + 1 + 1 + 1 + 1 < _; omega))
  have h7 := h6.trans (runs_goto (ascii '.') .reqFirstHttpMinor rfl he
    (by show _ + 1 + 1 + 1 + 1 + 1 + 1 < _; omega) rfl (fun e h => by rw [execState, h]; rfl))
  have h8 := h7.trans (runs_minor rfl he (by show _ + 1 + 1 + 1 + 1 + 1 + 1 + 1 < _; omega) hc)
  have h9 := h8.trans (runs_goto cr .reqLineAlmostDone rfl he
    (by show _ + 1 + 1 + 1 + 1 + 1 + 1 + 1 + 1 < _; omega) rfl (fun e h => by rw [execState, h]; rfl))
  exact h9.trans (runs_goto lf .headerFieldStart rfl he
    (by show _ + 1 + 1 + 1 + 1 + 1 + 1 + 1 + 1 + 1 < _; omega) rfl
    (fun e h => by rw [execState, h]; rfl))

/-- The parser is at the start of a field, or at the end of the header; so far the header says `fr`. -/
structure AtField (method : HttpMethod) (minor : ℕ) (fr : Framing) (p : HttpParser) : Prop where
  state : p.state = .headerFieldStart ∨ p.state = .headerValueLws
  errno : p.errno = none
  method : p.method = method
  major : p.httpMajor = 1
  minor : p.httpMinor = minor
  flags : p.flags = fr.flags
  length : p.contentLength = fr.contentLength

/-- The request line. -/
theorem runs_line (calls : List Callback) {m : Message} (hm : m.WellFormed) (hs : p.state = .startReq)
    (he : p.errno = none) (hn : p.nread + m.line.length ≤ httpMaxHeaderSize) :
    ∃ p', Runs { parser := p, calls := calls } m.line
        { parser := p', calls := calls ++ [Callback.messageBegin, .url m.url] } ∧
      AtField m.method m.minor {} p' ∧ p'.nread = p.nread + m.line.length := by
  obtain ⟨hnum, hdigit⟩ := minor_digit m.minor hm.minor
  have hall : m.line.length = m.method.str.length + 1 + (m.url.length + 1) + 10 := by
    simp only [Message.line, List.length_append]
    show _ + 1 + _ + 1 + (7 + 1 + 2) = _
    omega
  have h1 : Runs { parser := p, calls := calls } _ _ := runs_methodName m.method hs he (by omega)
  have h2 := h1.trans (runs_target hm.url_ne rfl he (by show p.nread + (_ + 1) + _ ≤ _; omega) hm.url)
  have h3 := h2.trans (runs_version rfl he (by show p.nread + (_ + 1) + (_ + 1) + 10 ≤ _; omega) hnum)
  have htext : m.method.str ++ bytes " " ++ (m.url ++ bytes " ") ++
      (bytes "HTTP/1." ++ [ascii '0' + m.minor.toUInt8] ++ crlf) = m.line := by
    simp only [Message.line, List.append_assoc]
  rw [htext, List.append_assoc calls] at h3
  refine ⟨_, h3, ⟨Or.inl rfl, he, rfl, rfl, hdigit, rfl, rfl⟩, ?_⟩
  show p.nread + (_ + 1) + (_ + 1) + 10 = _
  omega

end H2ClientProxy
