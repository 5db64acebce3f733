import H2ClientProxy.Equiv.HeaderWords
import H2ClientProxy.Equiv.RequestLine

/-!
# The parser reads the header of a request

* `runs_name` and `runs_value`: the name and the value of a field make one call each.
* `runs_field`: the field is counted as `Framing.add` counts it.
* `runs_head`: so is a whole head, after which `headersDone` finds how the body is framed.
-/

namespace H2ClientProxy

variable {p : HttpParser} {calls : List Callback} {ch : UInt8} {f : Field} {fr : Framing}

/-! ### Names -/

theorem token_ne {c : UInt8} (hc : token c ≠ 0) : c ≠ cr ∧ c ≠ lf ∧ c ≠ ascii ' ' ∧ c ≠ ascii '\t' := by
  refine ⟨?_, ?_, ?_, ?_⟩ <;> rintro rfl <;> exact hc (by decide)

/-- The first letter of a name, which is also the end of the line before it. -/
theorem runs_nameStart (hs : p.state = .headerFieldStart ∨ p.state = .headerValueLws)
    (he : p.errno = none) (hn : p.nread < httpMaxHeaderSize) (hch : token ch ≠ 0) :
    Runs { parser := p, calls := calls } [ch]
      { parser := { p with
          index := 0, state := .headerField, headerState := firstFieldState (token ch)
          nread := p.nread + 1 }
        headerFieldMark := some [ch], calls := calls } := by
  obtain ⟨hcr, hlf, hblank, htab⟩ := token_ne hch
  refine .single ?_ he he
  have hstart : ∀ q : HttpParser, headerFieldStart { parser := q, calls := calls } ch =
      { parser := { q with
          index := 0, state := .headerField, headerState := firstFieldState (token ch) }
        headerFieldMark := some [], calls := calls } := by
    intro q
    rw [headerFieldStart, if_neg hcr, if_neg hlf]
    dsimp only
    rw [if_neg hch]
    rfl
  rw [execByte_head (by rcases hs with hs | hs <;> rw [hs] <;> rfl) hn, execState]
  dsimp only
  rcases hs with hs | hs <;> rw [hs] <;> dsimp only
  · rw [hstart]
    rfl
  · rw [headerValueLws, if_neg (by simp [hblank, htab])]
    show (headerFieldStart { parser := _, calls := calls } ch).pass ch = _
    rw [hstart]
    rfl

/-- The other letters. -/
theorem runs_nameRest {w x : Bytes} (hs : p.state = .headerField) (he : p.errno = none)
    (hn : p.nread + w.length ≤ httpMaxHeaderSize) (hw : ∀ c ∈ w, token c ≠ 0) :
    Runs { parser := p, headerFieldMark := some x, calls := calls } w
      { parser := { p with
          headerState := (w.foldl nameStep (p.headerState, p.index)).1
          index := (w.foldl nameStep (p.headerState, p.index)).2, nread := p.nread + w.length }
        headerFieldMark := some (x ++ w), calls := calls } := by
  induction w generalizing p x with
  | nil =>
    rw [List.append_nil]
    exact .refl he
  | cons c w ih =>
    obtain ⟨hc, hw⟩ := List.forall_mem_cons.mp hw
    rw [List.length_cons] at hn
    have hstep : Runs { parser := p, headerFieldMark := some x, calls := calls } [c]
        { parser := { p with
            headerState := (nameStep (p.headerState, p.index) c).1
            index := (nameStep (p.headerState, p.index) c).2, nread := p.nread + 1 }
          headerFieldMark := some (x ++ [c]), calls := calls } := by
      refine .single ?_ he he
      rw [execByte_head (by rw [hs]; rfl) (by show p.nread < _; omega), execState]
      dsimp only
      rw [hs]
      dsimp only
      rw [headerField]
      dsimp only
      rw [if_pos hc]
      rfl
    have hrest := ih (p := { p with
        headerState := (nameStep (p.headerState, p.index) c).1
        index := (nameStep (p.headerState, p.index) c).2, nread := p.nread + 1 })
      (x := x ++ [c]) hs he (by show p.nread + 1 + w.length ≤ _; omega) hw
    have hall := hstep.trans hrest
    rw [List.append_assoc] at hall
    rw [List.length_cons, Nat.add_comm w.length 1, ← Nat.add_assoc]
    exact hall

/-- The colon and the blank behind a name. -/
theorem runs_nameEnd {x : Bytes} (hs : p.state = .headerField) (he : p.errno = none)
    (hn : p.nread + 2 ≤ httpMaxHeaderSize) :
    Runs { parser := p, headerFieldMark := some x, calls := calls } (bytes ": ")
      { parser := { p with state := .headerValueStart, nread := p.nread + 2 }
        calls := calls ++ [Callback.headerField x] } := by
  have hcolon : Runs { parser := p, headerFieldMark := some x, calls := calls } [ascii ':']
      { parser := { p with state := .headerValueStart, nread := p.nread + 1 }
        calls := calls ++ [Callback.headerField x] } := by
    refine .single ?_ he he
    rw [execByte_head (by rw [hs]; rfl) (by show p.nread < _; omega), execState]
    dsimp only
    rw [hs]
    rfl
  have hblank : Runs
      { parser := { p with state := .headerValueStart, nread := p.nread + 1 }
        calls := calls ++ [Callback.headerField x] } [ascii ' ']
      { parser := { p with state := .headerValueStart, nread := p.nread + 2 }
        calls := calls ++ [Callback.headerField x] } := by
    refine .single ?_ he he
    rw [execByte_head rfl (by show p.nread + 1 < _; omega)]
    rfl
  exact hcolon.trans hblank

/-- A whole name. -/
theorem runs_name (calls : List Callback) (hf : f.WellFormed)
    (hs : p.state = .headerFieldStart ∨ p.state = .headerValueLws) (he : p.errno = none)
    (hn : p.nread + (f.field.length + 2) ≤ httpMaxHeaderSize) :
    ∃ index, Runs { parser := p, calls := calls } (f.field ++ bytes ": ")
      { parser := { p with
          state := .headerValueStart, headerState := (nameState f.field).1, index := index
          nread := p.nread + (f.field.length + 2) }
        calls := calls ++ [Callback.headerField f.field] } := by
  obtain ⟨c, w, hcw⟩ := List.exists_cons_of_ne_nil hf.name_ne
  have hname := hf.name
  rw [hcw] at hname hn ⊢
  obtain ⟨hc, hw⟩ := List.forall_mem_cons.mp hname
  rw [List.length_cons] at hn ⊢
  have h1 : Runs { parser := p, calls := calls } _ _ := runs_nameStart hs he (by omega) hc
  have h2 := h1.trans (runs_nameRest (w := w) rfl he (by show p.nread + 1 + _ ≤ _; omega) hw)
  have h3 := h2.trans (runs_nameEnd rfl he (by show p.nread + 1 + _ + 2 ≤ _; omega))
  rw [show p.nread + (w.length + 1 + 2) = p.nread + 1 + w.length + 2 by omega]
  exact ⟨_, h3⟩

/-! ### Values -/

/-- What the end of a line adds to the flags. -/
def endFlags (s : HeaderState) (flags : ParserFlags) : ParserFlags :=
  match s with
  | .connectionKeepAlive => { flags with connectionKeepAlive := true }
  | .connectionClose => { flags with connectionClose := true }
  | .transferEncodingChunked => { flags with chunked := true }
  | _ => flags

/-- The end of the line of a value. -/
theorem runs_valueEnd {x : Bytes} (hs : p.state = .headerValue) (he : p.errno = none)
    (hn : p.nread + 2 ≤ httpMaxHeaderSize) :
    Runs { parser := p, headerValueMark := some x, calls := calls } crlf
      { parser := { p with
          state := .headerValueLws, flags := endFlags p.headerState p.flags, nread := p.nread + 2 }
        calls := calls ++ [Callback.headerValue x] } := by
  have hcr : Runs { parser := p, headerValueMark := some x, calls := calls } [cr]
      { parser := { p with state := .headerAlmostDone, nread := p.nread + 1 }
        calls := calls ++ [Callback.headerValue x] } := by
    refine .single ?_ he he
    rw [execByte_head (by rw [hs]; rfl) (by show p.nread < _; omega), execState]
    dsimp only
    rw [hs]
    rfl
  have hlf : Runs
      { parser := { p with state := .headerAlmostDone, nread := p.nread + 1 }
        calls := calls ++ [Callback.headerValue x] } [lf]
      { parser := { p with
          state := .headerValueLws, flags := endFlags p.headerState p.flags, nread := p.nread + 2 }
        calls := calls ++ [Callback.headerValue x] } := by
    refine .single ?_ he he
    rw [execByte_head rfl (by show p.nread + 1 < _; omega)]
    rfl
  exact hcr.trans hlf

/-- A line without a value. -/
theorem runs_noValue (hs : p.state = .headerValueStart) (he : p.errno = none)
    (hn : p.nread + 2 ≤ httpMaxHeaderSize) :
    Runs { parser := p, calls := calls } crlf
      { parser := { p with
          headerState := .general, index := 0, state := .headerValueLws, nread := p.nread + 2 }
        calls := calls ++ [Callback.headerValue []] } := by
  have hcr : Runs { parser := p, calls := calls } [cr]
      { parser := { p with
          headerState := .general, index := 0, state := .headerAlmostDone, nread := p.nread + 1 }
        calls := calls ++ [Callback.headerValue []] } := by
    refine .single ?_ he he
    rw [execByte_head (by rw [hs]; rfl) (by show p.nread < _; omega), execState]
    dsimp only
    rw [hs]
    rfl
  have hlf : Runs
      { parser := { p with
          headerState := .general, index := 0, state := .headerAlmostDone, nread := p.nread + 1 }
        calls := calls ++ [Callback.headerValue []] } [lf]
      { parser := { p with
          headerState := .general, index := 0, state := .headerValueLws, nread := p.nread + 2 }
        calls := calls ++ [Callback.headerValue []] } := by
    refine .single ?_ he he
    rw [execByte_head rfl (by show p.nread + 1 < _; omega)]
    rfl
  exact hcr.trans hlf

/-- The parser behind the first letter of a value. -/
def valueStart (p : HttpParser) (ch : UInt8) : HttpParser :=
  let p := { p with state := .headerValue, index := 0, nread := p.nread + 1 }
  match p.headerState with
  | .upgrade => { p with flags := { p.flags with upgrade := true }, headerState := .general }
  | .contentLength => { p with contentLength := digit ch }
  | s => { p with headerState := firstValueState s (lower ch) }

theorem runs_valueStart (hs : p.state = .headerValueStart) (he : p.errno = none)
    (hn : p.nread < httpMaxHeaderSize) (hblank : ch ≠ ascii ' ' ∧ ch ≠ ascii '\t')
    (hline : ch ≠ cr ∧ ch ≠ lf) (hnum : p.headerState = .contentLength → isNum ch = true) :
    Runs { parser := p, calls := calls } [ch]
      { parser := valueStart p ch, headerValueMark := some [ch], calls := calls } := by
  have herr : (valueStart p ch).errno = none := by
    unfold valueStart
    cases p.headerState <;> exact he
  refine .single ?_ he herr
  rw [execByte_head (by rw [hs]; rfl) hn, execState]
  dsimp only
  rw [hs]
  dsimp only
  rw [headerValueStart, if_neg (by simp [hblank])]
  dsimp only
  rw [if_neg hline.1, if_neg hline.2]
  unfold valueStart
  dsimp only
  cases hh : p.headerState with
  | contentLength =>
    dsimp only
    rw [hnum hh]
    rfl
  | _ => rfl

theorem headerValueChar_step {e : Exec} (hcr : ch ≠ cr) (hlf : ch ≠ lf)
    (hlen : e.parser.headerState ≠ .contentLength) : headerValueChar e ch =
      { e with parser := { e.parser with
          headerState := (valueStep (e.parser.headerState, e.parser.index) ch).1
          index := (valueStep (e.parser.headerState, e.parser.index) ch).2 } } := by
  obtain ⟨⟨st, hst, index, nread, len, major, minor, method, flags, upgrade, errno⟩, m1, m2, m3, m4, cs⟩ := e
  unfold headerValueChar valueStep
  dsimp only at hlen ⊢
  rw [if_neg hcr, if_neg hlf]
  cases hst with
  | contentLength => exact absurd rfl hlen
  | transferEncodingChunked | connectionKeepAlive | connectionClose =>
    dsimp only
    split_ifs <;> rfl
  | _ => rfl

theorem valueStep_ne_contentLength {s : HeaderState × ℕ} (hs : s.1 ≠ .contentLength) (ch : UInt8) :
    (valueStep s ch).1 ≠ .contentLength := by
  have hword : ∀ {word : Bytes} {i : ℕ} {c : UInt8} {going done : HeaderState},
      going ≠ .contentLength → done ≠ .contentLength →
      matchWord word i c going done ≠ .contentLength := by
    intro word i c going done hgoing hdone
    unfold matchWord
    split_ifs
    · decide
    · exact hdone
    · exact hgoing
  obtain ⟨st, i⟩ := s
  cases st with
  | contentLength => exact absurd rfl hs
  | matchingTransferEncodingChunked | matchingConnectionKeepAlive | matchingConnectionClose =>
    exact hword (fun h => HeaderState.noConfusion h) (fun h => HeaderState.noConfusion h)
  | transferEncodingChunked | connectionKeepAlive | connectionClose =>
    unfold valueStep
    dsimp only
    split_ifs <;> exact fun h => HeaderState.noConfusion h
  | _ => exact fun h => HeaderState.noConfusion h

/-- The other letters of a value that is not a length. -/
theorem runs_valueRest {w x : Bytes} (hs : p.state = .headerValue) (he : p.errno = none)
    (hn : p.nread + w.length ≤ httpMaxHeaderSize) (hw : ∀ c ∈ w, c ≠ cr ∧ c ≠ lf)
    (hlen : p.headerState ≠ .contentLength) :
    Runs { parser := p, headerValueMark := some x, calls := calls } w
      { parser := { p with
          headerState := (w.foldl valueStep (p.headerState, p.index)).1
          index := (w.foldl valueStep (p.headerState, p.index)).2, nread := p.nread + w.length }
        headerValueMark := some (x ++ w), calls := calls } := by
  induction w generalizing p x with
  | nil =>
    rw [List.append_nil]
    exact .refl he
  | cons c w ih =>
    obtain ⟨⟨hcr, hlf⟩, hw⟩ := List.forall_mem_cons.mp hw
    rw [List.length_cons] at hn
    have hstep : Runs { parser := p, headerValueMark := some x, calls := calls } [c]
        { parser := { p with
            headerState := (valueStep (p.headerState, p.index) c).1
            index := (valueStep (p.headerState, p.index) c).2, nread := p.nread + 1 }
          headerValueMark := some (x ++ [c]), calls := calls } := by
      refine .single ?_ he he
      rw [execByte_head (by rw [hs]; rfl) (by show p.nread < _; omega), execState]
      dsimp only
      rw [hs]
      dsimp only
      rw [headerValueChar_step hcr hlf hlen]
      rfl
    have hlen' : (valueStep (p.headerState, p.index) c).1 ≠ .contentLength :=
      valueStep_ne_contentLength hlen c
    have hrest := ih (p := { p with
        headerState := (valueStep (p.headerState, p.index) c).1
        index := (valueStep (p.headerState, p.index) c).2, nread := p.nread + 1 })
      (x := x ++ [c]) hs he (by show p.nread + 1 + w.length ≤ _; omega) hw hlen'
    have hall := hstep.trans hrest
    rw [List.append_assoc] at hall
    rw [List.length_cons, Nat.add_comm w.length 1, ← Nat.add_assoc]
    exact hall

theorem le_digitsValue (w : Bytes) (acc : ℕ) : acc ≤ digitsValue w acc := by
  induction w generalizing acc with
  | nil => exact le_rfl
  | cons c w ih =>
    rw [digitsValue]
    split_ifs
    · have hle := ih (acc * 10 + (c.toNat - 48))
      omega
    · exact le_rfl

/-- A length that is not too big is counted without an overflow. -/
theorem addDigit_of_lt {n base v : ℕ} (hbase : 0 < base) (hlt : n * base + v < ullongMax) :
    addDigit n base v = some (n * base + v) := by
  have hle : n ≤ n * base := Nat.le_mul_of_pos_right n hbase
  have hmax : ullongMax < 2 ^ 64 := by decide
  have hmod : (n * base + v) % 2 ^ 64 = n * base + v := Nat.mod_eq_of_lt (by omega)
  unfold addDigit
  dsimp only
  rw [hmod, if_neg (by simp; omega)]

theorem isNum_ne {c : UInt8} (hc : isNum c = true) : c ≠ cr ∧ c ≠ lf ∧ c ≠ ascii ' ' := by
  refine ⟨?_, ?_, ?_⟩ <;> rintro rfl <;> exact absurd hc (by decide)

/-- The other digits of a length. -/
theorem runs_digits {w x : Bytes} (hs : p.state = .headerValue) (hh : p.headerState = .contentLength)
    (he : p.errno = none) (hn : p.nread + w.length ≤ httpMaxHeaderSize)
    (hw : ∀ c ∈ w, isNum c = true) (hlt : digitsValue w p.contentLength < ullongMax) :
    Runs { parser := p, headerValueMark := some x, calls := calls } w
      { parser := { p with
          contentLength := digitsValue w p.contentLength, nread := p.nread + w.length }
        headerValueMark := some (x ++ w), calls := calls } := by
  induction w generalizing p x with
  | nil =>
    rw [List.append_nil]
    exact .refl he
  | cons c w ih =>
    obtain ⟨hc, hw⟩ := List.forall_mem_cons.mp hw
    rw [List.length_cons] at hn
    rw [digitsValue, if_pos hc] at hlt ⊢
    have hle := le_digitsValue w (p.contentLength * 10 + digit c)
    have hstep : Runs { parser := p, headerValueMark := some x, calls := calls } [c]
        { parser := { p with contentLength := p.contentLength * 10 + digit c, nread := p.nread + 1 }
          headerValueMark := some (x ++ [c]), calls := calls } := by
      refine .single ?_ he he
      rw [execByte_head (by rw [hs]; rfl) (by show p.nread < _; omega), execState]
      dsimp only
      rw [hs]
      dsimp only
      obtain ⟨hcr, hlf, hblank⟩ := isNum_ne hc
      rw [headerValueChar]
      dsimp only
      rw [if_neg hcr, if_neg hlf, hh]
      dsimp only
      rw [if_neg hblank, if_neg (by simp [hc]), addDigit_of_lt (by decide) (hle.trans_lt hlt)]
      rfl
    have hrest := ih (p := { p with
        contentLength := p.contentLength * 10 + digit c, nread := p.nread + 1 })
      (x := x ++ [c]) hs hh he (by show p.nread + 1 + w.length ≤ _; omega) hw hlt
    have hall := hstep.trans hrest
    rw [List.append_assoc] at hall
    rw [List.length_cons, Nat.add_comm w.length 1, ← Nat.add_assoc]
    exact hall

/-! ### What a field says -/

/-- The state behind a name, in terms of the names that count. -/
theorem nameState_is (hf : f.WellFormed) (k : NameWord) :
    (nameState f.field).1 = k.done ↔ ∃ k' : NameWord, k'.done = k.done ∧ f.is k'.text = true := by
  rw [nameState_done hf.name]
  exact exists_congr fun k' => and_congr_right fun _ => (is_iff hf.name k').symm

theorem endFlags_of_ne {s : HeaderState} (hs : ∀ k : ValueWord, s ≠ k.done) (flags : ParserFlags) :
    endFlags s flags = flags := by
  cases s with
  | transferEncodingChunked => exact absurd rfl (hs .chunked)
  | connectionKeepAlive => exact absurd rfl (hs .keepAlive)
  | connectionClose => exact absurd rfl (hs .close)
  | _ => rfl

/-- The state behind a value, in terms of the words that count. -/
theorem valueState_reads (hf : f.WellFormed) (s : HeaderState) (k : ValueWord) :
    (valueState s f.value).1 = k.done ↔ k.field = s ∧ f.reads k.text = true := by
  rw [valueState_done, reads_iff fun c hc => (hf.value c hc).1]

theorem endFlags_connection (hf : f.WellFormed) (flags : ParserFlags) :
    endFlags (valueState .connection f.value).1 flags =
      if f.reads (bytes "keep-alive") then { flags with connectionKeepAlive := true }
      else if f.reads (bytes "close") then { flags with connectionClose := true }
      else flags := by
  have hword := valueState_reads hf .connection
  split_ifs with hkeep hclose
  · rw [(hword .keepAlive).mpr ⟨rfl, hkeep⟩]
    rfl
  · rw [(hword .close).mpr ⟨rfl, hclose⟩]
    rfl
  · refine endFlags_of_ne (fun k hk => ?_) flags
    obtain ⟨hfield, hreads⟩ := (hword k).mp hk
    cases k with
    | chunked => exact HeaderState.noConfusion hfield
    | keepAlive => exact hkeep hreads
    | close => exact hclose hreads

theorem endFlags_transferEncoding (hf : f.WellFormed) (flags : ParserFlags) :
    endFlags (valueState .transferEncoding f.value).1 flags =
      if f.reads (bytes "chunked") then { flags with chunked := true } else flags := by
  have hword := valueState_reads hf .transferEncoding
  split_ifs with hchunked
  · rw [(hword .chunked).mpr ⟨rfl, hchunked⟩]
    rfl
  · refine endFlags_of_ne (fun k hk => ?_) flags
    obtain ⟨hfield, hreads⟩ := (hword k).mp hk
    cases k with
    | chunked => exact hchunked hreads
    | keepAlive | close => exact HeaderState.noConfusion hfield

theorem endFlags_other (hf : f.WellFormed) {s : HeaderState} (h1 : s ≠ .connection)
    (h2 : s ≠ .transferEncoding) (flags : ParserFlags) :
    endFlags (valueState s f.value).1 flags = flags := by
  refine endFlags_of_ne (fun k hk => ?_) flags
  obtain ⟨hfield, -⟩ := (valueState_reads hf s k).mp hk
  cases k with
  | chunked => exact h2 hfield.symm
  | keepAlive | close => exact h1 hfield.symm

/-- What the parser has counted when it has read the line of a field. -/
def fieldFlags (s : HeaderState) (value : Bytes) (flags : ParserFlags) : ParserFlags :=
  endFlags (valueState s value).1 (if s = .upgrade then { flags with upgrade := true } else flags)

/-- **The parser counts a field** by the states behind its name and its value as `Framing.add` does. -/
theorem framing_add_eq (hf : f.WellFormed) (hne : f.value ≠ []) (fr : Framing) :
    fr.add f =
      { flags := fieldFlags (nameState f.field).1 f.value fr.flags
        contentLength :=
          if (nameState f.field).1 = .contentLength then digitsValue f.value 0 else fr.contentLength } := by
  -- `Connection` and `Proxy-Connection` end in one state
  have hconn : (f.is (bytes "connection") || f.is (bytes "proxy-connection")) = true ↔
      (nameState f.field).1 = .connection := by
    rw [Bool.or_eq_true, show HeaderState.connection = NameWord.connection.done from rfl, nameState_is hf]
    constructor
    · rintro (h | h)
      · exact ⟨.connection, rfl, h⟩
      · exact ⟨.proxyConnection, rfl, h⟩
    · rintro ⟨k, hk, h⟩
      cases k with
      | connection => exact Or.inl h
      | proxyConnection => exact Or.inr h
      | contentLength | transferEncoding | upgrade => exact HeaderState.noConfusion hk
  -- every other word has a state of its own
  have hone : ∀ k : NameWord, (∀ k' : NameWord, k'.done = k.done → k' = k) →
      (f.is k.text = true ↔ (nameState f.field).1 = k.done) := by
    intro k hk
    rw [nameState_is hf]
    constructor
    · intro h
      exact ⟨k, rfl, h⟩
    · rintro ⟨k', hk', h⟩
      rw [← hk k' hk']
      exact h
  have hlength := hone .contentLength (by intro k; cases k <;> decide)
  have hencoding := hone .transferEncoding (by intro k; cases k <;> decide)
  have hupgrade := hone .upgrade (by intro k; cases k <;> decide)
  simp only [NameWord.text] at hlength hencoding hupgrade
  unfold Framing.add fieldFlags
  rw [if_neg hne]
  generalize (nameState f.field).1 = s at *
  simp only [hconn, hlength, hencoding, hupgrade, NameWord.done]
  by_cases h1 : s = .connection
  · subst h1
    rw [if_pos rfl, endFlags_connection hf]
    split_ifs <;> first | rfl | contradiction
  · rw [if_neg h1]
    by_cases h2 : s = .transferEncoding
    · subst h2
      rw [endFlags_transferEncoding hf]
      split_ifs <;> first | rfl | contradiction
    · rw [endFlags_other hf h1 h2, if_neg h2]
      by_cases h3 : s = .contentLength
      · subst h3
        rfl
      · rw [if_neg h3, if_neg h3]
        split_ifs <;> rfl

/-! ### A field -/

theorem firstValueState_ne_contentLength (s : HeaderState) (c : UInt8) :
    firstValueState s c ≠ .contentLength := by
  unfold firstValueState
  cases s with
  | transferEncoding | connection =>
    dsimp only
    split_ifs <;> exact fun h => HeaderState.noConfusion h
  | _ => exact fun h => HeaderState.noConfusion h

/-- A value that is not a length, and the end of its line. -/
theorem runs_value (calls : List Callback) {c : UInt8} {w : Bytes} (hs : p.state = .headerValueStart)
    (he : p.errno = none) (hn : p.nread + (w.length + 1 + 2) ≤ httpMaxHeaderSize)
    (hhead : c ≠ ascii ' ' ∧ c ≠ ascii '\t') (hvalue : ∀ x ∈ c :: w, x ≠ cr ∧ x ≠ lf)
    (hh : p.headerState ≠ .contentLength) :
    ∃ hst index, Runs { parser := p, calls := calls } (c :: w ++ crlf)
      { parser := { p with
          headerState := hst, index := index, state := .headerValueLws
          flags := fieldFlags p.headerState (c :: w) p.flags, nread := p.nread + (w.length + 1 + 2) }
        calls := calls ++ [Callback.headerValue (c :: w)] } := by
  obtain ⟨hline, hw⟩ := List.forall_mem_cons.mp hvalue
  have h1 : Runs { parser := p, calls := calls } _ _ :=
    runs_valueStart hs he (by omega) hhead hline fun h => absurd h hh
  -- behind the first letter the value is like any other one, also that of `Upgrade`
  have hstart : valueStart p c = { p with
      state := .headerValue, index := 0, nread := p.nread + 1
      headerState := firstValueState p.headerState (lower c)
      flags := if p.headerState = .upgrade then { p.flags with upgrade := true } else p.flags } := by
    unfold valueStart
    dsimp only
    cases hp : p.headerState with
    | contentLength => exact absurd hp hh
    | _ => rfl
  rw [hstart] at h1
  have hfirst := firstValueState_ne_contentLength p.headerState (lower c)
  have h2 := h1.trans (runs_valueRest rfl he (by show p.nread + 1 + _ ≤ _; omega) hw hfirst)
  have h3 := h2.trans (runs_valueEnd rfl he (by show p.nread + 1 + _ + 2 ≤ _; omega))
  rw [show p.nread + (w.length + 1 + 2) = p.nread + 1 + w.length + 2 by omega]
  exact ⟨_, _, h3⟩

/-- A length, and the end of its line. -/
theorem runs_length {c : UInt8} {w : Bytes} (hs : p.state = .headerValueStart) (he : p.errno = none)
    (hn : p.nread + (w.length + 1 + 2) ≤ httpMaxHeaderSize) (hh : p.headerState = .contentLength)
    (hnum : ∀ x ∈ c :: w, isNum x = true) (hlt : digitsValue (c :: w) 0 < ullongMax) :
    Runs { parser := p, calls := calls } (c :: w ++ crlf)
      { parser := { p with
          index := 0, state := .headerValueLws, contentLength := digitsValue (c :: w) 0
          nread := p.nread + (w.length + 1 + 2) }
        calls := calls ++ [Callback.headerValue (c :: w)] } := by
  obtain ⟨hc, hw⟩ := List.forall_mem_cons.mp hnum
  obtain ⟨hcr, hlf, hblank⟩ := isNum_ne hc
  have htab : c ≠ ascii '\t' := by
    rintro rfl
    exact absurd hc (by decide)
  have hvalue : digitsValue (c :: w) 0 = digitsValue w (digit c) := by
    rw [digitsValue, if_pos hc, Nat.zero_mul, Nat.zero_add]
    rfl
  rw [hvalue] at hlt ⊢
  have h1 : Runs { parser := p, calls := calls } _ _ :=
    runs_valueStart hs he (by omega) ⟨hblank, htab⟩ ⟨hcr, hlf⟩ fun _ => hc
  have hstart : valueStart p c = { p with
      state := .headerValue, index := 0, nread := p.nread + 1, contentLength := digit c } := by
    unfold valueStart
    dsimp only
    rw [hh]
  rw [hstart] at h1
  have h2 := h1.trans (runs_digits rfl hh he (by show p.nread + 1 + _ ≤ _; omega) hw hlt)
  have h3 := h2.trans (runs_valueEnd rfl he (by show p.nread + 1 + _ + 2 ≤ _; omega))
  have hflags : endFlags p.headerState p.flags = p.flags := by rw [hh]; rfl
  rw [hflags] at h3
  rw [show p.nread + (w.length + 1 + 2) = p.nread + 1 + w.length + 2 by omega]
  exact h3

variable {method : HttpMethod} {minor : ℕ}

theorem text_length (f : Field) : f.text.length = f.field.length + 2 + (f.value.length + 2) := by
  simp only [Field.text, List.length_append]
  show _ + 2 + _ + 2 = _
  omega

/-- **A field** makes its two calls and is counted. -/
theorem runs_field (calls : List Callback) (hf : f.WellFormed) (hp : AtField method minor fr p)
    (hn : p.nread + f.text.length ≤ httpMaxHeaderSize) :
    ∃ p', Runs { parser := p, calls := calls } f.text
        { parser := p', calls := calls ++ Message.fieldCalls f } ∧
      AtField method minor (fr.add f) p' ∧ p'.nread = p.nread + f.text.length := by
  have he := hp.errno
  rw [text_length] at hn ⊢
  obtain ⟨index, hname⟩ := runs_name calls hf hp.state he (by omega)
  have hcalls : calls ++ Message.fieldCalls f =
      calls ++ [Callback.headerField f.field] ++ [Callback.headerValue f.value] := by
    rw [List.append_assoc]
    rfl
  have htext : f.text = f.field ++ bytes ": " ++ (f.value ++ crlf) := by
    rw [Field.text, List.append_assoc]
  rw [hcalls, htext]
  cases hv : f.value with
  | nil =>
    -- an empty value is not counted
    have h := hname.trans (runs_noValue rfl he
      (by rw [hv] at hn; show p.nread + (_ + 2) + 2 ≤ _; exact hn))
    refine ⟨_, h, ⟨Or.inr rfl, he, hp.method, hp.major, hp.minor, ?_, ?_⟩, ?_⟩
    · rw [Framing.add, if_pos hv]
      exact hp.flags
    · rw [Framing.add, if_pos hv]
      exact hp.length
    · show p.nread + (_ + 2) + 2 = p.nread + (_ + 2 + (0 + 2))
      omega
  | cons c w =>
    -- the digits of `Content-Length` are read as a number, every other value as words
    have hne : f.value ≠ [] := by rw [hv]; exact List.cons_ne_nil c w
    have hhead := hf.value_head c (by rw [hv]; exact rfl)
    have hvalue := hf.value
    rw [hv] at hn hvalue
    rw [List.length_cons] at hn ⊢
    have hadd := framing_add_eq hf hne fr
    rw [hv] at hadd
    rw [hadd]
    by_cases hlen : (nameState f.field).1 = .contentLength
    · obtain ⟨hnum, hlt⟩ := hf.length (by
        obtain ⟨k, hk, h⟩ := (nameState_is hf .contentLength).mp hlen
        cases k with
        | contentLength => exact h
        | _ => exact HeaderState.noConfusion hk)
      rw [hv] at hnum hlt
      have h := hname.trans (runs_length rfl he (by show p.nread + (_ + 2) + _ ≤ _; omega) hlen hnum hlt)
      refine ⟨_, h, ⟨Or.inr rfl, he, hp.method, hp.major, hp.minor, ?_, ?_⟩, ?_⟩
      · dsimp only
        rw [hlen, fieldFlags, ← hv, endFlags_other hf (by decide) (by decide)]
        exact hp.flags
      · rw [if_pos hlen]
      · show p.nread + (_ + 2) + _ = _
        omega
    · obtain ⟨hst, index', hvalue'⟩ := runs_value (calls ++ [Callback.headerField f.field])
        (p := { p with
          state := .headerValueStart, headerState := (nameState f.field).1, index := index
          nread := p.nread + (f.field.length + 2) }) rfl he
        (by show p.nread + (_ + 2) + _ ≤ _; omega) hhead hvalue hlen
      have h := hname.trans hvalue'
      refine ⟨_, h, ⟨Or.inr rfl, he, hp.method, hp.major, hp.minor, ?_, ?_⟩, ?_⟩
      · show fieldFlags _ _ p.flags = _
        rw [hp.flags]
      · rw [if_neg hlen]
        exact hp.length
      · show p.nread + (_ + 2) + _ = _
        omega

/-- All fields. -/
theorem runs_fields (calls : List Callback) {fields : List Field} (hf : ∀ f ∈ fields, f.WellFormed)
    (hp : AtField method minor fr p)
    (hn : p.nread + (fields.flatMap Field.text).length ≤ httpMaxHeaderSize) :
    ∃ p', Runs { parser := p, calls := calls } (fields.flatMap Field.text)
        { parser := p', calls := calls ++ fields.flatMap Message.fieldCalls } ∧
      AtField method minor (fields.foldl Framing.add fr) p' ∧
      p'.nread = p.nread + (fields.flatMap Field.text).length := by
  induction fields generalizing p fr calls with
  | nil =>
    refine ⟨p, ?_, hp, rfl⟩
    rw [List.flatMap_nil, List.flatMap_nil, List.append_nil]
    exact .refl hp.errno
  | cons f fields ih =>
    obtain ⟨hf, hfields⟩ := List.forall_mem_cons.mp hf
    rw [List.flatMap_cons, List.length_append] at hn
    obtain ⟨p1, hrun1, hp1, hn1⟩ := runs_field calls hf hp (by omega)
    obtain ⟨p2, hrun2, hp2, hn2⟩ := ih (calls ++ Message.fieldCalls f) hfields hp1 (by omega)
    refine ⟨p2, ?_, hp2, ?_⟩
    · rw [List.flatMap_cons, List.flatMap_cons, ← List.append_assoc calls]
      exact hrun1.trans hrun2
    · rw [List.flatMap_cons, List.length_append, hn2, hn1, Nat.add_assoc]

/-! ### The end of the header -/

/-- Header fields leave the flag for the end of the last chunk alone. -/
theorem framing_trailing (fields : List Field) (fr : Framing) :
    (fields.foldl Framing.add fr).flags.trailing = fr.flags.trailing := by
  induction fields generalizing fr with
  | nil => rfl
  | cons f fields ih =>
    rw [List.foldl_cons, ih]
    unfold Framing.add
    split_ifs <;> rfl

theorem headersDone_errno (e : Exec) : (headersDone e).parser.errno = e.parser.errno := by
  unfold headersDone
  dsimp only
  split_ifs <;> rfl

/-- No mark is set at the end of the header. -/
theorem headersDone_pass (p : HttpParser) (calls : List Callback) (ch : UInt8) :
    (headersDone { parser := p, calls := calls }).pass ch = headersDone { parser := p, calls := calls } := by
  unfold headersDone
  dsimp only
  split_ifs <;> rfl

/-- **The head of a request** makes its calls; then the parser looks how the body is framed. -/
theorem runs_head (calls : List Callback) {m : Message} (hm : m.WellFormed) (hs : p.state = .startReq)
    (he : p.errno = none) (hn : p.nread ≤ 2) :
    ∃ p', Runs { parser := p, calls := calls } m.head
        (headersDone { parser := p', calls := calls ++ ([Callback.messageBegin, .url m.url]
          ++ m.fields.flatMap Message.fieldCalls ++ [Callback.headersComplete m.method]) }) ∧
      p'.errno = none ∧ p'.method = m.method ∧ p'.httpMajor = 1 ∧ p'.httpMinor = m.minor ∧
      p'.flags = m.framing.flags ∧ p'.contentLength = m.framing.contentLength ∧
      p'.upgrade = (m.framing.flags.upgrade || m.method = .connect) := by
  have hlen := hm.length
  rw [Message.head, List.length_append, List.length_append] at hlen
  have hcrlf : crlf.length = 2 := rfl
  -- the request line, the fields, and the empty line in two bytes
  obtain ⟨p1, hrun1, hp1, hn1⟩ := runs_line calls hm hs he (by omega)
  obtain ⟨p2, hrun2, hp2, hn2⟩ := runs_fields (calls ++ [Callback.messageBegin, .url m.url])
    hm.fields hp1 (by omega)
  have hframing : m.fields.foldl Framing.add {} = m.framing := rfl
  rw [hframing] at hp2
  have htrailing : p2.flags.trailing = false := by
    rw [hp2.flags]
    exact framing_trailing m.fields {}
  generalize hcalls : calls ++ [Callback.messageBegin, .url m.url] ++
    m.fields.flatMap Message.fieldCalls = calls2
    at hrun2
  have hcr : Runs { parser := p2, calls := calls2 } [cr]
      { parser := { p2 with state := .headersAlmostDone, nread := p2.nread + 1 }, calls := calls2 } := by
    refine .single ?_ hp2.errno hp2.errno
    rw [execByte_head (by rcases hp2.state with hs | hs <;> rw [hs] <;> rfl)
      (by show p2.nread < _; omega), execState]
    dsimp only
    rcases hp2.state with hs | hs <;> rw [hs] <;> rfl
  have hlf : Runs
      { parser := { p2 with state := .headersAlmostDone, nread := p2.nread + 1 }, calls := calls2 } [lf]
      (headersDone
        { parser := { p2 with
            state := .headersAlmostDone, nread := p2.nread + 1 + 1
            upgrade := p2.flags.upgrade || p2.method = .connect }
          calls := calls2 ++ [Callback.headersComplete p2.method] }) := by
    refine .single ?_ hp2.errno (by rw [headersDone_errno]; exact hp2.errno)
    rw [execByte_head rfl (by show p2.nread + 1 < _; omega), execState]
    dsimp only
    rw [headersAlmostDone]
    dsimp only
    rw [if_neg (by simp), htrailing, if_neg (by decide)]
    exact headersDone_pass _ _ lf
  have h := (hrun1.trans hrun2).trans (hcr.trans hlf)
  rw [hp2.method, ← hcalls, List.append_assoc calls, List.append_assoc calls] at h
  refine ⟨_, h, hp2.errno, rfl, hp2.major, hp2.minor, hp2.flags, hp2.length, ?_⟩
  show (p2.flags.upgrade || _) = _
  rw [hp2.flags]

end H2ClientProxy
