import H2ClientProxy.Equiv.Url
import Mathlib.Data.List.TakeWhile

/-!
# The text behind the spans

For a text shorter than 2¹⁶ bytes no offset wraps, and the loop of `http_parser_parse_url_` cuts the text
into maximal runs of characters of one class.

* `scanUrl_run`: a run of characters on which the automaton stays in its state.
* `scan_fragment`, `scan_query`, `scan_path`, `scan_rest`, `scan_server`: the parts of a text that
  the loop accepts, from the last one to the first.
* `scan_url`: the parts of a text that has a scheme.
* `exists_scan`: the loop accepts a text that the automaton survives.
-/

namespace H2ClientProxy

variable {buf t rest : Bytes} {u u' : HttpParserUrl} {f : UrlField} {p n : ℕ} {scan e : UrlScan}

/-! ### Bytes -/

/-- The characters of a query. -/
def isQueryChar (c : UInt8) : Bool := isUrlChar c || c = ascii '?'

/-- The characters of a fragment. -/
def isFragmentChar (c : UInt8) : Bool := isUrlChar c || c = ascii '?' || c = ascii '#'

/-- The characters behind which the server part goes on. -/
def isServerChar (c : UInt8) : Bool := c != ascii '/' && c != ascii '?'

/-- The characters that end a url in every state. -/
def isBlank (c : UInt8) : Bool :=
  (c = ascii ' ' || c = ascii '\r' || c = ascii '\n') || (c = ascii '\t' || c = 12)

/-- A statement is proved for the blanks and for the other characters. -/
theorem blank_cases {P : UInt8 → Prop}
    (hblank : P (ascii ' ') ∧ P (ascii '\r') ∧ P (ascii '\n') ∧ P (ascii '\t') ∧ P 12)
    (hother : ∀ c, isBlank c = false → P c) (c : UInt8) : P c := by
  obtain ⟨hspace, hreturn, hnewline, htab, hfeed⟩ := hblank
  cases hc : isBlank c with
  | false => exact hother c hc
  | true =>
    unfold isBlank at hc
    simp only [Bool.or_eq_true, decide_eq_true_iff] at hc
    obtain ((rfl | rfl) | rfl) | rfl | rfl := hc
    · exact hspace
    · exact hreturn
    · exact hnewline
    · exact htab
    · exact hfeed

theorem parse_spacesBeforeUrl : ∀ c, parseUrlChar .spacesBeforeUrl c =
    if c = ascii '/' || c = ascii '*' then .path else if isAlpha c then .schema else .dead := by
  refine blank_cases (by decide) fun c hc => ?_
  obtain ⟨h₁, h₂⟩ := Bool.or_eq_false_iff.1 hc
  simp only [parseUrlChar, h₁, h₂, Bool.false_eq_true, if_false]

theorem parse_schema : ∀ c, parseUrlChar .schema c =
    if isAlpha c then .schema else if c = ascii ':' then .schemaSlash else .dead := by
  refine blank_cases (by decide) fun c hc => ?_
  obtain ⟨h₁, h₂⟩ := Bool.or_eq_false_iff.1 hc
  simp only [parseUrlChar, h₁, h₂, Bool.false_eq_true, if_false]

theorem parse_schemaSlash : ∀ c, parseUrlChar .schemaSlash c =
    if c = ascii '/' then .schemaSlashSlash else .dead := by
  refine blank_cases (by decide) fun c hc => ?_
  obtain ⟨h₁, h₂⟩ := Bool.or_eq_false_iff.1 hc
  simp only [parseUrlChar, h₁, h₂, Bool.false_eq_true, if_false]

theorem parse_schemaSlashSlash : ∀ c, parseUrlChar .schemaSlashSlash c =
    if c = ascii '/' then .serverStart else .dead := by
  refine blank_cases (by decide) fun c hc => ?_
  obtain ⟨h₁, h₂⟩ := Bool.or_eq_false_iff.1 hc
  simp only [parseUrlChar, h₁, h₂, Bool.false_eq_true, if_false]

theorem parse_serverStart : ∀ c, parseUrlChar .serverStart c = parseServerChar c := by
  refine blank_cases (by decide) fun c hc => ?_
  obtain ⟨h₁, h₂⟩ := Bool.or_eq_false_iff.1 hc
  simp only [parseUrlChar, h₁, h₂, Bool.false_eq_true, if_false]

theorem parse_server : ∀ c, parseUrlChar .server c = parseServerChar c := by
  refine blank_cases (by decide) fun c hc => ?_
  obtain ⟨h₁, h₂⟩ := Bool.or_eq_false_iff.1 hc
  simp only [parseUrlChar, h₁, h₂, Bool.false_eq_true, if_false]

theorem parse_serverWithAt : ∀ c, parseUrlChar .serverWithAt c =
    if c = ascii '@' then .dead else parseServerChar c := by
  refine blank_cases (by decide) fun c hc => ?_
  obtain ⟨h₁, h₂⟩ := Bool.or_eq_false_iff.1 hc
  simp only [parseUrlChar, h₁, h₂, Bool.false_eq_true, if_false]

theorem parse_path : ∀ c, parseUrlChar .path c =
    if isUrlChar c then .path else if c = ascii '?' then .queryStringStart
    else if c = ascii '#' then .fragmentStart else .dead := by
  refine blank_cases (by decide) fun c hc => ?_
  obtain ⟨h₁, h₂⟩ := Bool.or_eq_false_iff.1 hc
  simp only [parseUrlChar, h₁, h₂, Bool.false_eq_true, if_false]

theorem parse_queryStringStart : ∀ c, parseUrlChar .queryStringStart c =
    if isQueryChar c then .queryString else if c = ascii '#' then .fragmentStart else .dead := by
  refine blank_cases (by decide) fun c hc => ?_
  obtain ⟨h₁, h₂⟩ := Bool.or_eq_false_iff.1 hc
  simp only [parseUrlChar, h₁, h₂, Bool.false_eq_true, if_false]
  unfold isQueryChar
  cases isUrlChar c with
  | true => rfl
  | false => by_cases hmark : c = ascii '?' <;> simp [hmark]

theorem parse_queryString : ∀ c, parseUrlChar .queryString c =
    if isQueryChar c then .queryString else if c = ascii '#' then .fragmentStart else .dead := by
  refine blank_cases (by decide) fun c hc => ?_
  obtain ⟨h₁, h₂⟩ := Bool.or_eq_false_iff.1 hc
  simp only [parseUrlChar, h₁, h₂, Bool.false_eq_true, if_false]
  unfold isQueryChar
  cases isUrlChar c with
  | true => rfl
  | false => by_cases hmark : c = ascii '?' <;> simp [hmark]

theorem parse_fragmentStart : ∀ c, parseUrlChar .fragmentStart c =
    if c = ascii '#' then .fragmentStart else if isFragmentChar c then .fragment else .dead := by
  refine blank_cases (by decide) fun c hc => ?_
  obtain ⟨h₁, h₂⟩ := Bool.or_eq_false_iff.1 hc
  simp only [parseUrlChar, h₁, h₂, Bool.false_eq_true, if_false]
  unfold isFragmentChar
  by_cases hmark : c = ascii '#'
  · rw [hmark]
    decide
  · cases isUrlChar c <;> simp [hmark]

theorem parse_fragment : ∀ c, parseUrlChar .fragment c =
    if isFragmentChar c then .fragment else .dead := by
  refine blank_cases (by decide) fun c hc => ?_
  obtain ⟨h₁, h₂⟩ := Bool.or_eq_false_iff.1 hc
  simp only [parseUrlChar, h₁, h₂, Bool.false_eq_true, if_false]
  unfold isFragmentChar
  cases isUrlChar c <;> simp

theorem parse_dead : ∀ c, parseUrlChar .dead c = .dead := by
  refine blank_cases (by decide) fun c hc => ?_
  obtain ⟨h₁, h₂⟩ := Bool.or_eq_false_iff.1 hc
  simp only [parseUrlChar, h₁, h₂, Bool.false_eq_true, if_false]

/-- Behind which characters of the server part the automaton is where. -/
theorem parseServerChar_of_isServerChar {c : UInt8} (hc : isServerChar c = true) :
    parseServerChar c = .serverWithAt ∧ c = ascii '@' ∨
      parseServerChar c = .server ∧ c ≠ ascii '@' ∨ parseServerChar c = .dead := by
  unfold isServerChar at hc
  rw [Bool.and_eq_true, bne_iff_ne, bne_iff_ne] at hc
  unfold parseServerChar
  rw [if_neg hc.1, if_neg hc.2]
  split_ifs with hat hchar
  · exact Or.inl ⟨rfl, hat⟩
  · exact Or.inr (Or.inl ⟨rfl, hat⟩)
  · exact Or.inr (Or.inr rfl)

/-! ### The parts of a text -/

/-- The text of a part, if the part is reported. -/
def partOf (buf : Bytes) (u : HttpParserUrl) (f : UrlField) : Option Bytes :=
  if u.fieldSet f then some (u.text buf f) else none

/-- A text that is there unless it is empty. -/
def nonNil (t : Bytes) : Option Bytes := if t = [] then none else some t

@[simp]
theorem nonNil_nil : nonNil [] = none := rfl

@[simp]
theorem nonNil_cons (c : UInt8) (t : Bytes) : nonNil (c :: t) = some (c :: t) := rfl

/-- `u'` is `u` but for the part `f`, which has the text `t`. -/
structure Puts (buf : Bytes) (f : UrlField) (t : Option Bytes) (u u' : HttpParserUrl) : Prop where
  part : partOf buf u' f = t
  fieldSet : ∀ g, g ≠ f → u'.fieldSet g = u.fieldSet g
  fieldData : ∀ g, g ≠ f → u'.fieldData g = u.fieldData g

theorem Puts.partOf_eq {t : Option Bytes} (h : Puts buf f t u u') {g : UrlField} (hg : g ≠ f) :
    partOf buf u' g = partOf buf u g := by
  unfold partOf HttpParserUrl.text
  rw [h.fieldSet g hg, h.fieldData g hg]

/-- A part that is absent. -/
theorem puts_none (h : u.fieldSet f = false) : Puts buf f none u u := by
  refine ⟨?_, fun _ _ => rfl, fun _ _ => rfl⟩
  rw [partOf, h]
  rfl

/-- The structure with the span of `f` set. -/
def HttpParserUrl.put (u : HttpParserUrl) (f : UrlField) (p n : ℕ) : HttpParserUrl :=
  { u with
    fieldSet := Function.update u.fieldSet f true
    fieldData := Function.update u.fieldData f ⟨p, n⟩ }

@[simp]
theorem put_fieldSet (u : HttpParserUrl) (f : UrlField) (p n : ℕ) (g : UrlField) :
    (u.put f p n).fieldSet g = if g = f then true else u.fieldSet g := Function.update_apply ..

@[simp]
theorem put_fieldData (u : HttpParserUrl) (f : UrlField) (p n : ℕ) (g : UrlField) :
    (u.put f p n).fieldData g = if g = f then ⟨p, n⟩ else u.fieldData g := Function.update_apply ..

theorem partOf_put_of_ne {g : UrlField} (hg : g ≠ f) :
    partOf buf (u.put f p n) g = partOf buf u g := by
  unfold partOf HttpParserUrl.text
  rw [put_fieldSet, put_fieldData]
  simp only [if_neg hg]

/-- A part that lies at `p`. -/
theorem puts_put (h : (buf.drop p).take n = t) : Puts buf f (some t) u (u.put f p n) := by
  refine ⟨?_, ?_, ?_⟩
  · rw [partOf, put_fieldSet, if_pos rfl, if_pos rfl, HttpParserUrl.text, put_fieldData, if_pos rfl, h]
  · intro g hg
    rw [put_fieldSet, if_neg hg]
  · intro g hg
    rw [put_fieldData, if_neg hg]

theorem start_eq_put (hp : p < 2 ^ 16) : u.start f p = u.put f p 1 := by
  unfold HttpParserUrl.start HttpParserUrl.put
  rw [u16_of_lt hp]

theorem grow_put (hn : n + 1 < 2 ^ 16) : (u.put f p n).grow f = u.put f p (n + 1) := by
  unfold HttpParserUrl.grow HttpParserUrl.put
  simp only [Function.update_self, Function.update_idem]
  rw [u16_of_lt hn]

/-! ### Positions -/

theorem drop_of_append {a b : Bytes} (h : buf.drop p = a ++ b) : buf.drop (p + a.length) = b := by
  rw [← List.drop_drop, h, List.drop_left]

theorem drop_of_cons {c : UInt8} (h : buf.drop p = c :: t) : buf.drop (p + 1) = t :=
  drop_of_append (a := [c]) h

/-- A text that is not empty lies in the buffer. -/
theorem length_of_cons {c : UInt8} (h : buf.drop p = c :: t) : p + t.length + 1 = buf.length := by
  have hlen := congrArg List.length h
  rw [List.length_drop, List.length_cons] at hlen
  omega

/-- A run goes to the end of the text, or to a character of another class. -/
theorem dropWhile_cases (P : UInt8 → Bool) (t : Bytes) :
    t.dropWhile P = [] ∧ t.takeWhile P = t ∨
      ∃ c r, t.dropWhile P = c :: r ∧ P c = false := by
  have hsplit := List.takeWhile_append_dropWhile (p := P) (l := t)
  have hhead := List.head?_dropWhile_not P t
  cases hdrop : t.dropWhile P with
  | nil =>
    rw [hdrop, List.append_nil] at hsplit
    exact Or.inl ⟨rfl, hsplit⟩
  | cons c r =>
    rw [hdrop] at hhead
    exact Or.inr ⟨c, r, rfl, hhead⟩

/-- Where a run that starts with `c` ends. -/
theorem drop_of_run {c : UInt8} (h : buf.drop p = c :: t) (P : UInt8 → Bool) :
    buf.drop (p + 1 + (t.takeWhile P).length) = t.dropWhile P := by
  apply drop_of_append
  rw [drop_of_cons h, List.takeWhile_append_dropWhile]

/-! ### Runs -/

/-- The loop over a run of characters on which the automaton stays in the state `st`. -/
theorem scanUrl_run {st : UrlState} {P : UInt8 → Bool} (hfield : st.field = some f)
    (hat : st ≠ .serverWithAt) (hP : ∀ c, P c = true → parseUrlChar st c = st) (foundAt : Bool)
    (text : Bytes) (off : ℕ) (hn : n + text.length < 2 ^ 16) :
    scanUrl text p ⟨st, some f, foundAt, u.put f off n⟩ =
      scanUrl (text.dropWhile P) (p + (text.takeWhile P).length)
        ⟨st, some f, foundAt, u.put f off (n + (text.takeWhile P).length)⟩ := by
  induction text generalizing p n with
  | nil => rfl
  | cons c text ih =>
    rw [List.length_cons] at hn
    cases hc : P c with
    | false => simp [hc]
    | true =>
      have hdead : st ≠ .dead := by
        rintro rfl
        cases hfield
      have hnext : (⟨st, some f, foundAt, u.put f off n⟩ : UrlScan).next st p =
          ⟨st, some f, foundAt, u.put f off (n + 1)⟩ := by
        simp only [UrlScan.next, hfield, if_true, hat, decide_false, Bool.or_false]
        rw [grow_put (by omega)]
      rw [scanUrl]
      simp only [hP c hc, hdead, if_false, hnext]
      rw [ih (by omega), List.dropWhile_cons_of_pos hc, List.takeWhile_cons_of_pos hc,
        List.length_cons, Nat.add_assoc p, Nat.add_assoc n, Nat.add_comm 1]

/-- The loop over a part whose first character is `c`. -/
theorem scanUrl_part {st : UrlState} {P : UInt8 → Bool} (hfield : st.field = some f)
    (hat : st ≠ .serverWithAt) (hP : ∀ c, P c = true → parseUrlChar st c = st)
    (hold : scan.oldUf ≠ some f) {c : UInt8} (hc : parseUrlChar scan.s c = st)
    (hbuf : buf.drop p = c :: t) (hshort : buf.length < 2 ^ 16) :
    ∃ u', Puts buf f (some (c :: t.takeWhile P)) scan.u u' ∧
      scanUrl (c :: t) p scan = scanUrl (t.dropWhile P) (p + 1 + (t.takeWhile P).length)
        ⟨st, some f, scan.foundAt, u'⟩ := by
  have hlen := length_of_cons hbuf
  have hdead : st ≠ .dead := by
    rintro rfl
    cases hfield
  have hnext : scan.next st p = ⟨st, some f, scan.foundAt, scan.u.put f p 1⟩ := by
    simp only [UrlScan.next, hfield, hold, if_false, hat, decide_false, Bool.or_false]
    rw [start_eq_put (by omega)]
  refine ⟨scan.u.put f p (1 + (t.takeWhile P).length), puts_put ?_, ?_⟩
  · rw [hbuf, Nat.add_comm, List.take_succ_cons]
    nth_rewrite 2 [← List.takeWhile_append_dropWhile (p := P) (l := t)]
    rw [List.take_left]
  · rw [scanUrl]
    simp only [hc, hdead, if_false, hnext]
    exact scanUrl_run hfield hat hP _ t p (by omega)

/-- A byte after which the automaton is between two parts. -/
theorem scanUrl_delimiter {st : UrlState} {c : UInt8} (hc : parseUrlChar scan.s c = st)
    (hdead : st ≠ .dead) (hfield : st.field = none) :
    scanUrl (c :: t) p scan = scanUrl t (p + 1) { scan with s := st } := by
  rw [scanUrl]
  simp only [hc, hdead, if_false, UrlScan.next, hfield]

/-- The loop stops at a byte that leads nowhere. -/
theorem scanUrl_dead {c : UInt8} (hc : parseUrlChar scan.s c = .dead) :
    scanUrl (c :: t) p scan = .error scan.u := by
  rw [scanUrl]
  simp only [hc, if_true]

/-! ### From the fragment to the path -/

/-- A fragment without the `#` at its front. -/
def fragmentText (t : Bytes) : Bytes := t.dropWhile (· == ascii '#')

theorem fragmentText_cons_mark (t : Bytes) : fragmentText (ascii '#' :: t) = fragmentText t := rfl

theorem fragmentText_cons {c : UInt8} (h : c ≠ ascii '#') (t : Bytes) :
    fragmentText (c :: t) = c :: t := by
  have hc : ¬ (c == ascii '#') = true := mt beq_iff_eq.1 h
  unfold fragmentText
  rw [List.dropWhile_cons, if_neg hc]

/-- `u'` is `u` with the fragment `t`, if that is not empty. -/
structure PutsFragment (buf t : Bytes) (u u' : HttpParserUrl) : Prop
    extends Puts buf .fragment (nonNil t) u u' where
  chars : ∀ c ∈ t, isFragmentChar c = true

theorem putsFragment_nil (h : u.fieldSet .fragment = false) : PutsFragment buf [] u u :=
  ⟨puts_none h, by simp⟩

/-- A fragment starts behind all the `#` at its front. -/
theorem scan_fragment (hok : scanUrl t p scan = .ok e) (hbuf : buf.drop p = t)
    (hshort : buf.length < 2 ^ 16) (hs : scan.s = .fragmentStart)
    (hold : scan.oldUf ≠ some .fragment) (hset : scan.u.fieldSet .fragment = false) :
    PutsFragment buf (fragmentText t) scan.u e.u ∧ e.foundAt = scan.foundAt := by
  induction t generalizing p scan with
  | nil =>
    cases hok
    exact ⟨putsFragment_nil hset, rfl⟩
  | cons c t ih =>
    have hc := (congrArg (parseUrlChar · c) hs).trans (parse_fragmentStart c)
    split_ifs at hc with hmark hchar
    · rw [scanUrl_delimiter hc (by decide) rfl] at hok
      rw [hmark, fragmentText_cons_mark]
      have hfragment := ih hok (drop_of_cons hbuf) rfl hold hset
      exact hfragment
    · obtain ⟨u', hputs, heq⟩ := scanUrl_part (P := isFragmentChar) rfl (by decide)
        (fun c hc => by rw [parse_fragment, if_pos hc]) hold hc hbuf hshort
      rw [heq] at hok
      rw [fragmentText_cons hmark]
      obtain ⟨hnil, hall⟩ | ⟨d, r, hcons, hd⟩ := dropWhile_cases isFragmentChar t
      · rw [hnil] at hok
        cases hok
        rw [hall] at hputs
        refine ⟨⟨hputs, ?_⟩, rfl⟩
        intro d hd
        rw [← hall] at hd
        obtain rfl | hd := List.mem_cons.1 hd
        · exact hchar
        · exact List.mem_takeWhile_imp hd
      · rw [hcons, scanUrl_dead (by rw [parse_fragment, hd]; rfl)] at hok
        cases hok
    · rw [scanUrl_dead hc] at hok
      cases hok

/-- The fragment behind a query: the text is empty or starts with a `#`. -/
def markedFragment : Bytes → Bytes
  | [] => []
  | _ :: t => fragmentText t

/-- From the state of a query that has ended. -/
theorem scan_queryEnd (hok : scanUrl t p scan = .ok e) (hbuf : buf.drop p = t)
    (hshort : buf.length < 2 ^ 16) (hs : scan.s = .queryStringStart ∨ scan.s = .queryString)
    (hold : scan.oldUf ≠ some .fragment) (hset : scan.u.fieldSet .fragment = false)
    (hend : ∀ c r, t = c :: r → isQueryChar c = false) :
    PutsFragment buf (markedFragment t) scan.u e.u ∧ e.foundAt = scan.foundAt := by
  cases t with
  | nil =>
    cases hok
    exact ⟨putsFragment_nil hset, rfl⟩
  | cons c t =>
    have hc : parseUrlChar scan.s c = if c = ascii '#' then .fragmentStart else .dead := by
      have hno := hend c t rfl
      obtain hs | hs := hs
      · rw [hs, parse_queryStringStart, hno]
        rfl
      · rw [hs, parse_queryString, hno]
        rfl
    split_ifs at hc with hmark
    · rw [scanUrl_delimiter hc (by decide) rfl] at hok
      have hfragment := scan_fragment hok (drop_of_cons hbuf) hshort rfl hold hset
      exact hfragment
    · rw [scanUrl_dead hc] at hok
      cases hok

/-- A query, and the fragment behind it. -/
theorem scan_query (hok : scanUrl t p scan = .ok e) (hbuf : buf.drop p = t)
    (hshort : buf.length < 2 ^ 16) (hs : scan.s = .queryStringStart)
    (hold : scan.oldUf ≠ some .query) (hold' : scan.oldUf ≠ some .fragment)
    (hset : scan.u.fieldSet .query = false) (hset' : scan.u.fieldSet .fragment = false) :
    ∃ u₁, Puts buf .query (nonNil (t.takeWhile isQueryChar)) scan.u u₁ ∧
      PutsFragment buf (markedFragment (t.dropWhile isQueryChar)) u₁ e.u ∧
      e.foundAt = scan.foundAt := by
  have hmarked : ∀ {p : ℕ} {scan : UrlScan}, scanUrl (t.dropWhile isQueryChar) p scan = .ok e →
      buf.drop p = t.dropWhile isQueryChar →
      (scan.s = .queryStringStart ∨ scan.s = .queryString) → scan.oldUf ≠ some .fragment →
      scan.u.fieldSet .fragment = false →
      PutsFragment buf (markedFragment (t.dropWhile isQueryChar)) scan.u e.u ∧
        e.foundAt = scan.foundAt := by
    intro p scan hok hbuf hs hold hset
    apply scan_queryEnd hok hbuf hshort hs hold hset
    intro c r hcons
    have hhead := List.head?_dropWhile_not isQueryChar t
    rw [hcons] at hhead
    exact hhead
  by_cases hfirst : ∃ c r, t = c :: r ∧ isQueryChar c = true
  · obtain ⟨c, r, rfl, hchar⟩ := hfirst
    have hc : parseUrlChar scan.s c = .queryString := by
      rw [hs, parse_queryStringStart, if_pos hchar]
    obtain ⟨u₁, hputs, heq⟩ := scanUrl_part (P := isQueryChar) rfl (by decide)
      (fun c hc => by rw [parse_queryString, if_pos hc]) hold hc hbuf hshort
    rw [heq] at hok
    rw [List.takeWhile_cons_of_pos hchar, nonNil_cons]
    rw [List.dropWhile_cons_of_pos hchar] at hmarked ⊢
    refine ⟨u₁, hputs, hmarked hok (drop_of_run hbuf _) (Or.inr rfl) (by simp) ?_⟩
    show u₁.fieldSet .fragment = false
    rw [hputs.fieldSet _ (by decide)]
    exact hset'
  · -- there is no query
    have hdrop : t.dropWhile isQueryChar = t ∧ t.takeWhile isQueryChar = [] := by
      cases t with
      | nil => exact ⟨rfl, rfl⟩
      | cons c r =>
        have hchar : ¬ isQueryChar c = true := fun hc => hfirst ⟨c, r, rfl, hc⟩
        exact ⟨List.dropWhile_cons_of_neg hchar, List.takeWhile_cons_of_neg hchar⟩
    rw [hdrop.1] at hmarked ⊢
    rw [hdrop.2]
    exact ⟨scan.u, puts_none hset, hmarked hok hbuf (Or.inl hs) hold' hset'⟩

/-- The query behind a path: the text is empty or starts with a `?` or a `#`. -/
def queryText : Bytes → Bytes
  | [] => []
  | c :: t => if c = ascii '?' then t.takeWhile isQueryChar else []

/-- The fragment behind a path. -/
def restFragment : Bytes → Bytes
  | [] => []
  | c :: t => if c = ascii '?' then markedFragment (t.dropWhile isQueryChar) else fragmentText t

/-- `u'` is `u` with the query and the fragment of what is behind a path. -/
def PutsRest (buf t : Bytes) (u u' : HttpParserUrl) : Prop :=
  ∃ u₁, Puts buf .query (nonNil (queryText t)) u u₁ ∧
    PutsFragment buf (restFragment t) u₁ u'

/-- The automaton is before the query and before the fragment. -/
structure BeforeQuery (scan : UrlScan) : Prop where
  oldQuery : scan.oldUf ≠ some .query
  oldFragment : scan.oldUf ≠ some .fragment
  query : scan.u.fieldSet .query = false
  fragment : scan.u.fieldSet .fragment = false

/-- A `?`, the query and the fragment. -/
theorem scan_queryMark (hok : scanUrl (ascii '?' :: t) p scan = .ok e)
    (hbuf : buf.drop p = ascii '?' :: t) (hshort : buf.length < 2 ^ 16)
    (hc : parseUrlChar scan.s (ascii '?') = .queryStringStart) (h : BeforeQuery scan) :
    PutsRest buf (ascii '?' :: t) scan.u e.u ∧ e.foundAt = scan.foundAt := by
  rw [scanUrl_delimiter hc (by decide) rfl] at hok
  obtain ⟨u₁, hquery, hfragment, hat⟩ := scan_query hok (drop_of_cons hbuf) hshort rfl h.oldQuery
    h.oldFragment h.query h.fragment
  exact ⟨⟨u₁, hquery, hfragment⟩, hat⟩

/-- What is behind a path. -/
theorem scan_pathEnd (hok : scanUrl t p scan = .ok e) (hbuf : buf.drop p = t)
    (hshort : buf.length < 2 ^ 16) (hs : scan.s = .path) (h : BeforeQuery scan)
    (hend : ∀ c r, t = c :: r → isUrlChar c = false) :
    PutsRest buf t scan.u e.u ∧ e.foundAt = scan.foundAt := by
  cases t with
  | nil =>
    cases hok
    exact ⟨⟨_, puts_none h.query, putsFragment_nil h.fragment⟩, rfl⟩
  | cons c t =>
    have hc := (congrArg (parseUrlChar · c) hs).trans (parse_path c)
    rw [if_neg (by rw [hend c t rfl]; exact Bool.false_ne_true)] at hc
    split_ifs at hc with hquery hfragment
    · subst hquery
      exact scan_queryMark hok hbuf hshort hc h
    · subst hfragment
      rw [scanUrl_delimiter hc (by decide) rfl] at hok
      obtain ⟨hputs, hat⟩ := scan_fragment hok (drop_of_cons hbuf) hshort rfl h.oldFragment h.fragment
      exact ⟨⟨_, puts_none h.query, hputs⟩, hat⟩
    · rw [scanUrl_dead hc] at hok
      cases hok

/-- A path whose first character is `c`, and what is behind it. -/
theorem scan_path {c : UInt8} (hok : scanUrl (c :: t) p scan = .ok e) (hbuf : buf.drop p = c :: t)
    (hshort : buf.length < 2 ^ 16) (hc : parseUrlChar scan.s c = .path) (h : BeforeQuery scan)
    (hold : scan.oldUf ≠ some .path) :
    ∃ u₁, Puts buf .path (some (c :: t.takeWhile isUrlChar)) scan.u u₁ ∧
      PutsRest buf (t.dropWhile isUrlChar) u₁ e.u ∧ e.foundAt = scan.foundAt := by
  obtain ⟨u₁, hputs, heq⟩ := scanUrl_part (P := isUrlChar) rfl (by decide)
    (fun c hc => by rw [parse_path, if_pos hc]) hold hc hbuf hshort
  rw [heq] at hok
  have hbefore : BeforeQuery ⟨.path, some .path, scan.foundAt, u₁⟩ := by
    refine ⟨by simp, by simp, ?_, ?_⟩
    · exact (hputs.fieldSet .query (by decide)).trans h.query
    · exact (hputs.fieldSet .fragment (by decide)).trans h.fragment
  obtain ⟨hrest, hat⟩ := scan_pathEnd hok (drop_of_run hbuf _) hshort rfl hbefore (by
    intro d r hcons
    have hhead := List.head?_dropWhile_not isUrlChar t
    rw [hcons] at hhead
    exact hhead)
  exact ⟨u₁, hputs, hrest, hat⟩

/-- What is behind the server part. -/
theorem scan_rest (hok : scanUrl t p scan = .ok e) (hbuf : buf.drop p = t)
    (hshort : buf.length < 2 ^ 16)
    (hs : ∀ c, isServerChar c = false → parseUrlChar scan.s c = parseServerChar c)
    (h : BeforeQuery scan) (hold : scan.oldUf ≠ some .path) (hset : scan.u.fieldSet .path = false)
    (hend : ∀ c r, t = c :: r → isServerChar c = false) :
    ∃ u₁, Puts buf .path (nonNil (t.takeWhile isUrlChar)) scan.u u₁ ∧
      PutsRest buf (t.dropWhile isUrlChar) u₁ e.u ∧ e.foundAt = scan.foundAt := by
  cases t with
  | nil =>
    cases hok
    exact ⟨_, puts_none hset, ⟨_, puts_none h.query, putsFragment_nil h.fragment⟩, rfl⟩
  | cons c t =>
    have hc := hs c (hend c t rfl)
    have hcases : c = ascii '/' ∨ c = ascii '?' := by
      have hno := hend c t rfl
      unfold isServerChar at hno
      rw [Bool.and_eq_false_iff, bne_eq_false_iff_eq, bne_eq_false_iff_eq] at hno
      exact hno
    obtain rfl | rfl := hcases
    · exact scan_path hok hbuf hshort hc h hold
    · obtain ⟨hrest, hat⟩ := scan_queryMark hok hbuf hshort hc h
      exact ⟨_, puts_none hset, hrest, hat⟩

/-! ### The server part and the scheme -/

/-- The states inside the server part. -/
def UrlState.inServer (s : UrlState) : Bool := s = .server || s = .serverWithAt

/-- A byte of the server part. -/
theorem scan_serverByte {c : UInt8} (hok : scanUrl (c :: t) p scan = .ok e)
    (hs : parseUrlChar scan.s c = parseServerChar c ∨ parseUrlChar scan.s c = .dead)
    (hc : isServerChar c = true) :
    ∃ s, s.inServer = true ∧ scanUrl t (p + 1)
      ⟨s, some .host, scan.foundAt || c = ascii '@',
        if scan.oldUf = some .host then scan.u.grow .host else scan.u.start .host p⟩ = .ok e := by
  have hnot : parseUrlChar scan.s c ≠ .dead := by
    intro hdead
    rw [scanUrl_dead hdead] at hok
    cases hok
  have hstep : parseUrlChar scan.s c = parseServerChar c := hs.resolve_right hnot
  rw [scanUrl, if_neg hnot] at hok
  obtain ⟨hst, hat⟩ | ⟨hst, hat⟩ | hst := parseServerChar_of_isServerChar hc
  · refine ⟨.serverWithAt, rfl, ?_⟩
    rw [hstep, hst] at hok
    simpa [UrlScan.next, UrlState.field, hat] using hok
  · refine ⟨.server, rfl, ?_⟩
    rw [hstep, hst] at hok
    simpa [UrlScan.next, UrlState.field, hat] using hok
  · exact absurd (hstep.trans hst) hnot

theorem parse_of_inServer {s : UrlState} (h : s.inServer = true) (c : UInt8) :
    parseUrlChar s c = parseServerChar c ∨ parseUrlChar s c = .dead := by
  unfold UrlState.inServer at h
  rw [Bool.or_eq_true, decide_eq_true_iff, decide_eq_true_iff] at h
  obtain rfl | rfl := h
  · exact Or.inl (parse_server c)
  · rw [parse_serverWithAt]
    split_ifs
    · exact Or.inr rfl
    · exact Or.inl rfl

/-- The end of the server part. -/
theorem parse_serverEnd {s : UrlState} (h : s.inServer = true) {c : UInt8}
    (hc : isServerChar c = false) : parseUrlChar s c = parseServerChar c := by
  unfold UrlState.inServer at h
  rw [Bool.or_eq_true, decide_eq_true_iff, decide_eq_true_iff] at h
  obtain rfl | rfl := h
  · exact parse_server c
  · have hat : c ≠ ascii '@' := by
      rintro rfl
      exact absurd hc (by decide)
    rw [parse_serverWithAt, if_neg hat]

/-- A run of the server part. -/
theorem scan_serverRun {s : UrlState} {foundAt : Bool} {off : ℕ} (hs : s.inServer = true)
    (hn : n + t.length < 2 ^ 16)
    (hok : scanUrl t p ⟨s, some .host, foundAt, u.put .host off n⟩ = .ok e) :
    ∃ s', s'.inServer = true ∧
      scanUrl (t.dropWhile isServerChar) (p + (t.takeWhile isServerChar).length)
        ⟨s', some .host, foundAt || ascii '@' ∈ t.takeWhile isServerChar,
          u.put .host off (n + (t.takeWhile isServerChar).length)⟩ = .ok e := by
  induction t generalizing p n s foundAt with
  | nil =>
    refine ⟨s, hs, ?_⟩
    simpa using hok
  | cons c t ih =>
    rw [List.length_cons] at hn
    cases hc : isServerChar c with
    | false =>
      refine ⟨s, hs, ?_⟩
      simpa [hc] using hok
    | true =>
      obtain ⟨s₁, hs₁, hok₁⟩ := scan_serverByte hok (parse_of_inServer hs c) hc
      simp only [if_true] at hok₁
      rw [grow_put (by omega)] at hok₁
      obtain ⟨s', hs', hok'⟩ := ih hs₁ (by omega) hok₁
      refine ⟨s', hs', ?_⟩
      rw [List.dropWhile_cons_of_pos hc, List.takeWhile_cons_of_pos hc, List.length_cons]
      rw [Nat.add_assoc p, Nat.add_assoc n, Nat.add_comm 1, Bool.or_assoc] at hok'
      simpa [eq_comm] using hok'

/-- What the loop makes of the server part, which is not empty, and of what is behind it. -/
structure PutsServer (buf t : Bytes) (p : ℕ) (u : HttpParserUrl) (e : UrlScan) : Prop where
  foundAt : e.foundAt = decide (ascii '@' ∈ t.takeWhile isServerChar)
  rest : ∃ u₁, Puts buf .path (nonNil ((t.dropWhile isServerChar).takeWhile isUrlChar))
      (u.put .host p (t.takeWhile isServerChar).length) u₁ ∧
    PutsRest buf ((t.dropWhile isServerChar).dropWhile isUrlChar) u₁ e.u

/-- The server part: either it is empty, and nothing is written for the host, or it is the host. -/
theorem scan_server (hok : scanUrl t p scan = .ok e) (hbuf : buf.drop p = t)
    (hshort : buf.length < 2 ^ 16) (hs : scan.s = .serverStart) (hat : scan.foundAt = false)
    (h : BeforeQuery scan) (hold : scan.oldUf ≠ some .path) (hold' : scan.oldUf ≠ some .host)
    (hset : scan.u.fieldSet .path = false) :
    t.takeWhile isServerChar = [] ∧ e.u.fieldData .host = scan.u.fieldData .host ∨
      t.takeWhile isServerChar ≠ [] ∧ PutsServer buf t p scan.u e := by
  by_cases hfirst : ∃ c r, t = c :: r ∧ isServerChar c = true
  · right
    obtain ⟨c, t, rfl, hc⟩ := hfirst
    have hlen := length_of_cons hbuf
    have hstep : parseUrlChar scan.s c = parseServerChar c := by
      rw [hs]
      exact parse_serverStart c
    obtain ⟨s₁, hs₁, hok₁⟩ := scan_serverByte hok (Or.inl hstep) hc
    rw [if_neg hold', start_eq_put (by omega), hat, Bool.false_or] at hok₁
    obtain ⟨s', hs', hok'⟩ := scan_serverRun hs₁ (by omega) hok₁
    -- behind the host neither a query nor a fragment has been seen
    have hbefore : BeforeQuery ⟨s', some .host,
        c = ascii '@' || ascii '@' ∈ t.takeWhile isServerChar,
        scan.u.put .host p (1 + (t.takeWhile isServerChar).length)⟩ := by
      refine ⟨by simp, by simp, ?_, ?_⟩
      · show (scan.u.put .host p _).fieldSet .query = false
        rw [put_fieldSet, if_neg (by decide)]
        exact h.query
      · show (scan.u.put .host p _).fieldSet .fragment = false
        rw [put_fieldSet, if_neg (by decide)]
        exact h.fragment
    obtain ⟨u₁, hpath, hrest, hfound⟩ := scan_rest hok' (drop_of_run hbuf _) hshort
      (fun c hc => parse_serverEnd hs' hc) hbefore (by simp)
      (by simpa using hset) (by
        intro d r hcons
        have hhead := List.head?_dropWhile_not isServerChar t
        rw [hcons] at hhead
        exact hhead)
    rw [List.takeWhile_cons_of_pos hc]
    refine ⟨List.cons_ne_nil _ _, ?_, u₁, ?_, ?_⟩
    · rw [hfound, List.takeWhile_cons_of_pos hc]
      simp [eq_comm]
    · rw [List.takeWhile_cons_of_pos hc, List.dropWhile_cons_of_pos hc, List.length_cons,
        Nat.add_comm]
      exact hpath
    · rw [List.dropWhile_cons_of_pos hc]
      exact hrest
  · left
    -- no byte of a server: the path, or the end, follows at once
    have hend : ∀ c r, t = c :: r → isServerChar c = false := by
      intro c r hcons
      cases hc : isServerChar c with
      | false => rfl
      | true => exact absurd ⟨c, r, hcons, hc⟩ hfirst
    obtain ⟨u₁, hpath, ⟨u₂, hquery, hfragment⟩, -⟩ := scan_rest hok hbuf hshort
      (fun c _ => by rw [hs]; exact parse_serverStart c) h hold hset hend
    refine ⟨?_, ?_⟩
    · cases t with
      | nil => rfl
      | cons c r => rw [List.takeWhile_cons_of_neg (by rw [hend c r rfl]; exact Bool.false_ne_true)]
    · rw [hfragment.fieldData _ (by decide), hquery.fieldData _ (by decide),
        hpath.fieldData _ (by decide)]

/-! ### The whole text -/

section Url

variable (url : Bytes)

/-- The scheme of a text in absolute form. -/
def urlScheme : Bytes := url.takeWhile isAlpha

/-- What is behind `://`. -/
def urlAfter : Bytes := (url.dropWhile isAlpha).drop 3

/-- The server part. -/
def urlServer : Bytes := (urlAfter url).takeWhile isServerChar

/-- What is behind the server part. -/
def urlRest : Bytes := (urlAfter url).dropWhile isServerChar

/-- The path. -/
def urlPath : Bytes := (urlRest url).takeWhile isUrlChar

/-- The query. -/
def urlQuery : Bytes := queryText ((urlRest url).dropWhile isUrlChar)

/-- The fragment. -/
def urlFragment : Bytes := restFragment ((urlRest url).dropWhile isUrlChar)

end Url

variable {url : Bytes}

/-- What the loop reports of a text in absolute form with a server part. -/
structure ScannedUrl (url : Bytes) (e : UrlScan) : Prop where
  split : url.dropWhile isAlpha = bytes "://" ++ urlAfter url
  scheme_ne : urlScheme url ≠ []
  server_ne : urlServer url ≠ []
  schema : partOf url e.u .schema = some (urlScheme url)
  fieldSet_host : e.u.fieldSet .host = true
  host : e.u.fieldData .host = ⟨(urlScheme url).length + 3, (urlServer url).length⟩
  foundAt : e.foundAt = decide (ascii '@' ∈ urlServer url)
  path : partOf url e.u .path = nonNil (urlPath url)
  query : partOf url e.u .query = nonNil (urlQuery url)
  fragment : partOf url e.u .fragment = nonNil (urlFragment url)
  fragment_chars : ∀ c ∈ urlFragment url, isFragmentChar c = true
  port : e.u.fieldSet .port = false

/-- The parts of a text in absolute form, when its server part starts at `p`. -/
theorem PutsServer.scannedUrl (h : PutsServer url (urlAfter url) p u e)
    (hp : p = (urlScheme url).length + 3)
    (hsplit : url.dropWhile isAlpha = bytes "://" ++ urlAfter url) (hscheme : urlScheme url ≠ [])
    (hserver : urlServer url ≠ []) (hschema : partOf url u .schema = some (urlScheme url))
    (hport : u.fieldSet .port = false) : ScannedUrl url e := by
  obtain ⟨hat, u₁, hpath, u₂, hquery, hfragment⟩ := h
  constructor
  · exact hsplit
  · exact hscheme
  · exact hserver
  · -- `schema`
    rw [hfragment.partOf_eq (by decide), hquery.partOf_eq (by decide), hpath.partOf_eq (by decide),
      partOf_put_of_ne (by decide)]
    exact hschema
  · rw [hfragment.fieldSet _ (by decide), hquery.fieldSet _ (by decide), hpath.fieldSet _ (by decide),
      put_fieldSet, if_pos rfl]
  · -- `host`
    rw [hfragment.fieldData _ (by decide), hquery.fieldData _ (by decide), hpath.fieldData _ (by decide),
      put_fieldData, if_pos rfl, hp]
    rfl
  · exact hat
  · rw [hfragment.partOf_eq (by decide), hquery.partOf_eq (by decide)]
    exact hpath.part
  · rw [hfragment.partOf_eq (by decide)]
    exact hquery.part
  · exact hfragment.part
  · exact hfragment.chars
  · -- `port`
    rw [hfragment.fieldSet _ (by decide), hquery.fieldSet _ (by decide), hpath.fieldSet _ (by decide),
      put_fieldSet, if_neg (by decide)]
    exact hport

/-- What is behind the scheme: the text ends before the host, or `://` and the server part follow. -/
theorem scan_afterScheme (hok : scanUrl t p scan = .ok e) (hbuf : buf.drop p = t)
    (hshort : buf.length < 2 ^ 16) (hs : scan.s = .schema) (hat : scan.foundAt = false)
    (hold : scan.oldUf = some .schema) (hset : ∀ g, g ≠ .schema → scan.u.fieldSet g = false)
    (hend : ∀ c r, t = c :: r → isAlpha c = false) :
    (t.drop 3).takeWhile isServerChar = [] ∧ e.u.fieldData .host = scan.u.fieldData .host ∨
      t = bytes "://" ++ t.drop 3 ∧ (t.drop 3).takeWhile isServerChar ≠ [] ∧
        PutsServer buf (t.drop 3) (p + 3) scan.u e := by
  -- `:`, `/` and `/` one by one; any other byte is an error
  obtain _ | ⟨c₁, t⟩ := t
  · cases hok
    exact Or.inl ⟨rfl, rfl⟩
  have hc₁ := (congrArg (parseUrlChar · c₁) hs).trans (parse_schema c₁)
  rw [if_neg (by rw [hend c₁ t rfl]; exact Bool.false_ne_true)] at hc₁
  split_ifs at hc₁ with hcolon
  swap
  · rw [scanUrl_dead hc₁] at hok
    cases hok
  rw [scanUrl_delimiter hc₁ (by decide) rfl] at hok
  obtain _ | ⟨c₂, t⟩ := t
  · cases hok
    exact Or.inl ⟨rfl, rfl⟩
  have hc₂ := parse_schemaSlash c₂
  split_ifs at hc₂ with hslash
  swap
  · rw [scanUrl_dead hc₂] at hok
    cases hok
  rw [scanUrl_delimiter hc₂ (by decide) rfl] at hok
  obtain _ | ⟨c₃, t⟩ := t
  · cases hok
    exact Or.inl ⟨rfl, rfl⟩
  have hc₃ := parse_schemaSlashSlash c₃
  split_ifs at hc₃ with hslash'
  swap
  · rw [scanUrl_dead hc₃] at hok
    cases hok
  rw [scanUrl_delimiter hc₃ (by decide) rfl] at hok
  subst hcolon hslash hslash'
  have hbuf' : buf.drop (p + 1 + 1 + 1) = t := drop_of_cons (drop_of_cons (drop_of_cons hbuf))
  have hbefore : BeforeQuery { scan with s := .serverStart } := by
    refine ⟨?_, ?_, hset _ (by decide), hset _ (by decide)⟩
    · rw [hold]
      decide
    · rw [hold]
      decide
  obtain hhost | hserver := scan_server hok hbuf' hshort rfl hat hbefore
    (by rw [hold]; decide) (by rw [hold]; decide) (hset _ (by decide))
  · exact Or.inl hhost
  · exact Or.inr ⟨rfl, hserver⟩

/-- A text that starts with a path has neither a scheme nor a host. -/
theorem scan_originForm {c : UInt8} (hok : scanUrl (c :: t) 0 (.init .zero false) = .ok e)
    (hshort : (c :: t).length < 2 ^ 16) (hc : parseUrlChar .spacesBeforeUrl c = .path) :
    e.u.fieldSet .schema = false ∧ e.u.fieldSet .host = false := by
  obtain ⟨u₁, hpath, ⟨u₂, hquery, hfragment⟩, -⟩ := scan_path hok (List.drop_zero) hshort hc
    ⟨by simp [UrlScan.init], by simp [UrlScan.init], rfl, rfl⟩ (by simp [UrlScan.init])
  rw [hfragment.fieldSet _ (by decide), hquery.fieldSet _ (by decide), hpath.fieldSet _ (by decide),
    hfragment.fieldSet _ (by decide), hquery.fieldSet _ (by decide), hpath.fieldSet _ (by decide)]
  exact ⟨rfl, rfl⟩

/-- What the loop reports of a text that starts with a letter. -/
theorem scan_url {c : UInt8} (hok : scanUrl (c :: t) 0 (.init .zero false) = .ok e)
    (hshort : (c :: t).length < 2 ^ 16) (hc : parseUrlChar .spacesBeforeUrl c = .schema)
    (hletter : isAlpha c = true) :
    urlServer (c :: t) = [] ∧ e.u.fieldData .host = {} ∨ ScannedUrl (c :: t) e := by
  have hstart : parseUrlChar (UrlScan.init .zero false).s c = .schema := hc
  obtain ⟨u₁, hputs, heq⟩ := scanUrl_part (P := isAlpha) rfl (by decide)
    (fun c hc => by rw [parse_schema, if_pos hc]) (by simp [UrlScan.init]) hstart List.drop_zero
    hshort
  rw [heq] at hok
  have hdrop : (c :: t).dropWhile isAlpha = t.dropWhile isAlpha :=
    List.dropWhile_cons_of_pos hletter
  have htake : urlScheme (c :: t) = c :: t.takeWhile isAlpha := List.takeWhile_cons_of_pos hletter
  have hdata : u₁.fieldData .host = {} := hputs.fieldData _ (by decide)
  obtain ⟨hserver, hhost⟩ | ⟨hsplit, hserver, hrest⟩ := scan_afterScheme hok
    (drop_of_run List.drop_zero isAlpha) hshort rfl rfl rfl hputs.fieldSet (by
      intro d r hcons
      have hhead := List.head?_dropWhile_not isAlpha t
      rw [hcons] at hhead
      exact hhead)
  · rw [← hdrop] at hserver
    exact Or.inl ⟨hserver, hhost.trans hdata⟩
  · right
    rw [← hdrop] at hsplit hserver hrest
    apply hrest.scannedUrl
    · rw [htake, List.length_cons]
      omega
    · exact hsplit
    · rw [htake]
      exact List.cons_ne_nil _ _
    · exact hserver
    · rw [htake]
      exact hputs.part
    · exact hputs.fieldSet _ (by decide)

/-! ### Which texts are accepted -/

theorem foldl_dead (t : Bytes) : t.foldl parseUrlChar .dead = .dead := by
  induction t with
  | nil => rfl
  | cons c t ih =>
    rw [List.foldl_cons, parse_dead, ih]

/-- The loop accepts a text that the automaton survives. -/
theorem exists_scan (h : t.foldl parseUrlChar scan.s ≠ .dead) : ∃ e, scanUrl t p scan = .ok e := by
  induction t generalizing p scan with
  | nil => exact ⟨scan, rfl⟩
  | cons c t ih =>
    rw [List.foldl_cons] at h
    have hc : parseUrlChar scan.s c ≠ .dead := by
      intro hdead
      rw [hdead] at h
      exact h (foldl_dead t)
    have hs : (scan.next (parseUrlChar scan.s c) p).s = parseUrlChar scan.s c := by
      unfold UrlScan.next
      cases (parseUrlChar scan.s c).field <;> rfl
    rw [scanUrl, if_neg hc]
    apply ih
    rw [hs]
    exact h

end H2ClientProxy
